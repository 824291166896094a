import AutomaticCache.Proxy.System

/-!
# Cache integrity

Every entry of the cache, and every put on its way there, is an object that the fetch for some
client has built out of a complete response (`Client.Built`). A client fetches at most once, so
that what its fetch has read stays what it was: `Client.Extends` is what no step takes back.
-/

namespace AutomaticCache

namespace Proxy

variable {adapters : List ObjectStorage}

/-- The fetch for the client has built the object: from a complete response to its request, which an
adapter intercepts and gives the object's key. -/
def Client.Built (adapters : List ObjectStorage) (c : Client) (o : Object) : Prop :=
  ∃ req adapter res, c.request = some req ∧ shouldIntercept adapters req = some adapter ∧
    c.fetched = some res ∧ res.Complete ∧
    o = ⟨adapter.extractObjectKey req, some res.body.data, res.header⟩

/-- Before the handler starts a fetch. -/
def Handler.Early : Handler → Prop
  | .readRequest | .get | .doubleCheck => True
  | _ => False

/-- Before the fetch has read a response. -/
def Unfetched : Option Fetch → Prop
  | none | some .dial | some .write | some .read => True
  | _ => False

/-- What the stages of a client's goroutines say of what it has read. -/
structure Client.Ok (adapters : List ObjectStorage) (c : Client) : Prop where
  unread : c.handler = .readRequest → c.request = none
  early : c.handler.Early → c.fetch = none
  unfetched : Unfetched c.fetch → c.fetched = none
  body : ∀ res, c.fetch = some (.body res) → c.fetched = some res
  built : ∀ o, c.fetch = some (.sendNil o) ∨ c.fetch = some (.sendObj o) → c.Built adapters o

theorem Client.ok_accepted (targetAddr : Addr) : (Client.accepted targetAddr).Ok adapters where
  unread := fun _ => rfl
  early := fun _ => rfl
  unfetched := fun _ => rfl
  body := fun _ h => nomatch h
  built := fun _ h => by rcases h with h | h <;> cases h

/-! ## One step of a client -/

namespace Client

variable {c c' : Client} {store : Store} {e : Event} {effect : Effect}

/-- A fetch runs only once the handler waits for it. -/
theorem Ok.not_early (h : c.Ok adapters) {f : Fetch} (hf : c.fetch = some f) :
    ¬ c.handler.Early := by
  intro he
  rw [h.early he] at hf
  cases hf

/-- A step of the handler that leaves the fetch alone. -/
theorem Ok.handler (h : c.Ok adapters) (hreq : c'.request = c.request) (hfetch : c'.fetch = c.fetch)
    (hfetched : c'.fetched = c.fetched) (hh : ¬ c'.handler.Early) : c'.Ok adapters where
  unread := fun he => absurd (by rw [he]; trivial) hh
  early := fun he => absurd he hh
  unfetched := by rw [hfetch, hfetched]; exact h.unfetched
  body := by rw [hfetch, hfetched]; exact h.body
  built := by unfold Built; rw [hfetch, hfetched, hreq]; exact h.built

/-- A step of the fetch, or of the handler that ends it. -/
theorem Ok.fetch (hh : ¬ c'.handler.Early) (hun : Unfetched c'.fetch → c'.fetched = none)
    (hbody : ∀ res, c'.fetch = some (.body res) → c'.fetched = some res)
    (hbuilt : ∀ o, c'.fetch = some (.sendNil o) ∨ c'.fetch = some (.sendObj o) →
      c'.Built adapters o) : c'.Ok adapters :=
  ⟨fun he => absurd (by rw [he]; trivial) hh, fun he => absurd he hh, hun, hbody, hbuilt⟩

/-- The fetch gives up, or is over. -/
theorem Ok.over {f : Fetch} (hh : ¬ c'.handler.Early) (hf : c'.fetch = some f)
    (hover : f = .ended ∨ ∃ err, f = .sendErr err) : c'.Ok adapters := by
  refine Ok.fetch hh ?_ ?_ ?_ <;> rw [hf] <;> rcases hover with rfl | ⟨err, rfl⟩
  · exact fun hu => absurd hu not_false
  · exact fun hu => absurd hu not_false
  · exact nofun
  · exact nofun
  · rintro o (h | h) <;> cases h
  · rintro o (h | h) <;> cases h

/-- The fetch goes on before it has read a response. -/
theorem Ok.goesOn (h : c.Ok adapters) {f f' : Fetch} (hf : c.fetch = some f)
    (hu : Unfetched (some f)) (hf' : f' = .write ∨ f' = .read) :
    { c with fetch := some f' }.Ok adapters := by
  have hnone : c.fetched = none := h.unfetched (by rw [hf]; exact hu)
  refine Ok.fetch (h.not_early hf) (fun _ => hnone) ?_ ?_ <;> rcases hf' with rfl | rfl
  · exact nofun
  · exact nofun
  · rintro o (h | h) <;> cases h
  · rintro o (h | h) <;> cases h

theorem Ok.step (h : c.Ok adapters) (hs : c.Step adapters store e effect) :
    effect.client.Ok adapters := by
  cases hs with
  | badRequest err hh => exact h.handler rfl rfl rfl not_false
  | intercepted req adapter hh ha =>
    have hfetch : c.fetch = none := h.early (by rw [hh]; trivial)
    refine ⟨nofun, fun _ => hfetch, h.unfetched, h.body, fun o ho => ?_⟩
    rcases ho with ho | ho <;> exact absurd (hfetch.symm.trans ho) nofun
  | notIntercepted req hh ha =>
    have hfetch : c.fetch = none := h.early (by rw [hh]; trivial)
    refine Ok.fetch not_false h.unfetched h.body fun o ho => ?_
    rcases ho with ho | ho <;> exact absurd (hfetch.symm.trans ho) nofun
  | getHit o hit hh hf => exact h.handler rfl rfl rfl not_false
  | getMiss hh =>
    have hfetch : c.fetch = none := h.early (by rw [hh]; trivial)
    exact ⟨nofun, fun _ => hfetch, h.unfetched, h.body, h.built⟩
  | doubleCheckHit o hit hh hf => exact h.handler rfl rfl rfl not_false
  | doubleCheckMiss hh =>
    have hfetch : c.fetch = none := h.early (by rw [hh]; trivial)
    refine Ok.fetch not_false (fun _ => h.unfetched (by rw [hfetch]; trivial)) nofun ?_
    rintro o (ho | ho) <;> cases ho
  | dialFails err hf => exact Ok.over (h.not_early hf) rfl (Or.inr ⟨_, rfl⟩)
  | dial hf => exact h.goesOn hf trivial (Or.inl rfl)
  | writeFails err hf => exact Ok.over (h.not_early hf) rfl (Or.inr ⟨_, rfl⟩)
  | write hf => exact h.goesOn hf trivial (Or.inr rfl)
  | readFails err hf => exact Ok.over (h.not_early hf) rfl (Or.inr ⟨_, rfl⟩)
  | read res hf =>
    refine Ok.fetch (h.not_early hf) (fun hu => absurd hu not_false) (fun res' hres => ?_) ?_
    · cases hres; rfl
    · rintro o (ho | ho) <;> cases ho
  | bodyFails res err hf => exact Ok.over (h.not_early hf) rfl (Or.inr ⟨_, rfl⟩)
  | body res o req adapter hf hr ha ho =>
    refine Ok.fetch (h.not_early hf) (fun hu => absurd hu not_false) nofun ?_
    obtain ⟨hc, rfl⟩ := receive_eq_ok.1 ho
    rintro o (h' | h') <;> cases h'
    exact ⟨req, adapter, res, hr, ha, h.body res hf, hc, rfl⟩
  | errChanErr err hh hf => exact Ok.over not_false rfl (Or.inl rfl)
  | errChanNil o hh hf =>
    refine Ok.fetch not_false (fun hu => absurd hu not_false) nofun ?_
    rintro o' (h' | h') <;> cases h'
    exact h.built o (Or.inl hf)
  | objChan o hh hf => exact Ok.over not_false rfl (Or.inl rfl)
  | servePanics o p hh => exact h
  | serveFails o hh => exact h.handler rfl rfl rfl not_false
  | serve o req adapter response hh hr ha ho => exact h.handler rfl rfl rfl not_false
  | sendFails response err hh => exact h.handler rfl rfl rfl not_false
  | send response hh => exact h.handler rfl rfl rfl not_false
  | dialForwardFails err hh => exact h.handler rfl rfl rfl not_false
  | dialForward hh => exact h.handler rfl rfl rfl not_false
  | forwardFails err hh => exact h.handler rfl rfl rfl not_false
  | forward res hh => exact h.handler rfl rfl rfl not_false

/-- What no step takes back: the destination, the request and the response that was fetched. -/
structure Extends (c c' : Client) : Prop where
  targetAddr : c'.targetAddr = c.targetAddr
  request : ∀ req, c.request = some req → c'.request = some req
  fetched : ∀ res, c.fetched = some res → c'.fetched = some res

theorem Extends.refl (c : Client) : c.Extends c := ⟨rfl, fun _ h => h, fun _ h => h⟩

theorem Built.extends {o : Object} (h : c.Built adapters o) (hext : c.Extends c') :
    c'.Built adapters o := by
  obtain ⟨req, adapter, res, hr, ha, hf, hrest⟩ := h
  exact ⟨req, adapter, res, hext.request req hr, ha, hext.fetched res hf, hrest⟩

theorem Ok.extends (h : c.Ok adapters) (hs : c.Step adapters store e effect) :
    c.Extends effect.client := by
  cases hs with
  | intercepted req adapter hh ha | notIntercepted req hh ha =>
    refine ⟨rfl, fun req' hr => ?_, fun _ h => h⟩
    rw [h.unread hh] at hr
    cases hr
  | read res hf =>
    refine ⟨rfl, fun _ h => h, fun res' hr => ?_⟩
    rw [h.unfetched (by rw [hf]; trivial)] at hr
    cases hr
  | _ => exact ⟨rfl, fun _ h => h, fun _ h => h⟩

/-- A put is started for the object that the fetch has built. -/
theorem Ok.put (h : c.Ok adapters) (hs : c.Step adapters store e effect) {o : Object}
    (ho : effect.put = some o) : effect.client.Built adapters o := by
  have hext := h.extends hs
  cases hs with
  | objChan o' hh hf =>
    cases ho
    exact (h.built o (Or.inr hf)).extends hext
  | _ => cases ho

end Client

/-! ## Every run -/

variable {s s' : State}

/-- The fetch for client `i` has built the object. -/
def State.BuiltBy (adapters : List ObjectStorage) (s : State) (i : ℕ) (o : Object) : Prop :=
  ∃ c, s.clients[i]? = some c ∧ c.Built adapters o

structure State.Filled (adapters : List ObjectStorage) (s : State) : Prop where
  ok : ∀ c ∈ s.clients, c.Ok adapters
  puts : ∀ p ∈ s.puts, s.BuiltBy adapters p.filler p.object
  store : ∀ k entry, s.store.lookup k = some entry →
    ∃ o, s.BuiltBy adapters entry.filler o ∧ o.key = k ∧ entry.data = o.encode

theorem filled_initial : initial.Filled adapters where
  ok := fun _ h => absurd h List.not_mem_nil
  puts := fun _ h => absurd h List.not_mem_nil
  store := fun k _ h => by
    have hnone : initial.store.lookup k = none := Finmap.lookup_empty k
    rw [hnone] at h
    cases h

/-- No client goes back on what it has read. -/
def State.Extends (s s' : State) : Prop :=
  ∀ (i : ℕ) (c : Client), s.clients[i]? = some c →
    ∃ c', s'.clients[i]? = some c' ∧ c.Extends c'

theorem State.BuiltBy.extends {i : ℕ} {o : Object} (h : s.BuiltBy adapters i o)
    (hext : s.Extends s') : s'.BuiltBy adapters i o := by
  obtain ⟨c, hc, hb⟩ := h
  obtain ⟨c', hc', hcc'⟩ := hext i c hc
  exact ⟨c', hc', hb.extends hcc'⟩

theorem State.Extends.of_clients (h : s'.clients = s.clients) : s.Extends s' :=
  fun _ c hc => ⟨c, by rw [h]; exact hc, .refl c⟩

theorem State.extends_accept (s : State) (targetAddr : Addr) :
    s.Extends { s with clients := s.clients ++ [.accepted targetAddr] } :=
  fun _ c hc => ⟨c, (List.getElem?_append_left (List.getElem?_eq_some_iff.1 hc).1).trans hc,
    .refl c⟩

theorem State.extends_after {i : ℕ} {c : Client} {effect : Effect} (hc : s.clients[i]? = some c)
    (hext : c.Extends effect.client) : s.Extends (s.after i effect) := by
  intro j d hd
  by_cases hij : i = j
  · subst hij
    obtain rfl : c = d := Option.some.inj (hc.symm.trans hd)
    exact ⟨effect.client, List.getElem?_set_self (List.getElem?_eq_some_iff.1 hc).1, hext⟩
  · exact ⟨d, (List.getElem?_set_ne hij).trans hd, .refl d⟩

theorem extends_step {a : Act} (hI : s.Filled adapters) (h : step adapters s a = some s') :
    s.Extends s' := by
  cases a with
  | accept targetAddr => rw [step_accept h]; exact s.extends_accept targetAddr
  | client i e =>
    obtain ⟨c, effect, hc, hstep, rfl⟩ := step_client h
    exact State.extends_after hc ((hI.ok c (List.mem_of_getElem? hc)).extends hstep)
  | put n => obtain ⟨p, -, rfl⟩ := step_put h; exact .of_clients rfl
  | putFails n => rw [step_putFails h]; exact .of_clients rfl
  | drop key => rw [step_drop h]; exact .of_clients rfl

theorem filled_step {a : Act} (hI : s.Filled adapters) (h : step adapters s a = some s') :
    s'.Filled adapters := by
  have hext := extends_step hI h
  have hputs : ∀ p ∈ s.puts, s'.BuiltBy adapters p.filler p.object :=
    fun p hp => (hI.puts p hp).extends hext
  have hstore : ∀ k entry, s.store.lookup k = some entry →
      ∃ o, s'.BuiltBy adapters entry.filler o ∧ o.key = k ∧ entry.data = o.encode := by
    intro k entry hk
    obtain ⟨o, ho, hrest⟩ := hI.store k entry hk
    exact ⟨o, ho.extends hext, hrest⟩
  cases a with
  | accept targetAddr =>
    obtain rfl := step_accept h
    refine ⟨fun c hc => ?_, hputs, hstore⟩
    rcases List.mem_append.1 hc with hc | hc
    · exact hI.ok c hc
    · rw [List.mem_singleton.1 hc]
      exact Client.ok_accepted targetAddr
  | client i e =>
    obtain ⟨c, effect, hc, hstep, rfl⟩ := step_client h
    have hok := hI.ok c (List.mem_of_getElem? hc)
    refine ⟨fun d hd => ?_, fun p hp => ?_, hstore⟩
    · rcases List.mem_or_eq_of_mem_set hd with hd | rfl
      · exact hI.ok d hd
      · exact hok.step hstep
    · rcases List.mem_append.1 hp with hp | hp
      · exact hputs p hp
      · obtain ⟨o, ho, rfl⟩ := Option.map_eq_some_iff.1 (Option.mem_toList.1 hp)
        exact ⟨effect.client, List.getElem?_set_self (List.getElem?_eq_some_iff.1 hc).1,
          hok.put hstep ho⟩
  | put n =>
    obtain ⟨p, hp, rfl⟩ := step_put h
    refine ⟨hI.ok, fun q hq => hputs q (List.mem_of_mem_eraseIdx hq), fun k entry hk => ?_⟩
    have hk :
        (s.store.insert p.object.key ⟨p.object.encode, p.filler⟩).lookup k = some entry := hk
    by_cases he : k = p.object.key
    · rw [he, Finmap.lookup_insert, Option.some.injEq] at hk
      subst hk
      exact ⟨p.object, hputs p (List.mem_of_getElem? hp), he.symm, rfl⟩
    · rw [Finmap.lookup_insert_of_ne _ he] at hk
      exact hstore k entry hk
  | putFails n =>
    obtain rfl := step_putFails h
    exact ⟨hI.ok, fun q hq => hputs q (List.mem_of_mem_eraseIdx hq), hstore⟩
  | drop key =>
    obtain rfl := step_drop h
    refine ⟨hI.ok, hputs, fun k entry hk => ?_⟩
    have hk : (s.store.erase key).lookup k = some entry := hk
    by_cases he : k = key
    · rw [he, Finmap.lookup_erase] at hk
      cases hk
    · rw [Finmap.lookup_erase_ne he] at hk
      exact hstore k entry hk

theorem filled_of_reachable (h : (system adapters).Reachable s) : s.Filled adapters :=
  h.invariant filled_initial fun _ _ _ hI hs => filled_step hI hs

/-- What is true of a new connection and kept by every step of a client is true of all clients. -/
theorem clients_of_reachable {P : Client → Prop}
    (haccepted : ∀ targetAddr, P (.accepted targetAddr))
    (hstep : ∀ store c e effect, c.Ok adapters → P c → c.Step adapters store e effect →
      P effect.client) (h : (system adapters).Reachable s) : ∀ c ∈ s.clients, P c := by
  have hkeep : ∀ s a s', (s.Filled adapters ∧ ∀ c ∈ s.clients, P c) →
      (system adapters).step s a = some s' → s'.Filled adapters ∧
      ∀ c ∈ s'.clients, P c := by
    rintro s a s' ⟨hF, hP⟩ hs
    refine ⟨filled_step hF hs, fun c' hc' => ?_⟩
    obtain ⟨i, hi⟩ := List.getElem?_of_mem hc'
    rcases step_new_client hs hi with ⟨c, hc⟩ | ⟨targetAddr, -, rfl⟩
    · have hmem := List.mem_of_getElem? hc
      rcases step_clients hs hc with ⟨hsame, -⟩ | ⟨e, effect, -, hcstep, hsame⟩
      · obtain rfl : c' = c := Option.some.inj (hi.symm.trans hsame)
        exact hP c' hmem
      · obtain rfl : c' = effect.client := Option.some.inj (hi.symm.trans hsame)
        exact hstep s.store c e effect (hF.ok c hmem) (hP c hmem) hcstep
    · exact haccepted targetAddr
  exact (h.invariant ⟨filled_initial, fun _ hc => absurd hc List.not_mem_nil⟩ hkeep).2

/-! ## Integrity -/

/-- Every entry is the serialization of an object built for an intercepted request with the entry's
key, out of a response with status 200 whose body was read to the end. -/
def State.Integrity (adapters : List ObjectStorage) (s : State) : Prop :=
  ∀ k entry, s.store.lookup k = some entry →
    ∃ c ∈ s.clients, ∃ req adapter res, c.request = some req ∧
      shouldIntercept adapters req = some adapter ∧ adapter.extractObjectKey req = k ∧
      c.fetched = some res ∧ res.statusCode = statusOK ∧ res.body.err = none ∧
      BigcacheWrapper.serializeObj ⟨k, some res.body.data, res.header⟩ = .ok entry.data

/-- The dial or the write of the fetch fails, its response cannot be parsed, has another status than
200, or a body that ends with an error. -/
def Event.Fails (c : Client) : Event → Prop
  | .dial (some _) | .write (some _) | .read (.error _) => True
  | .body => ∀ res, c.fetch = some (.body res) → ¬ res.Complete
  | _ => False

/-- A failed fetch changes neither the cache nor the pending puts, and ends with an error. -/
def State.FailureKeepsCache (adapters : List ObjectStorage) (s : State) : Prop :=
  ∀ (i : ℕ) (c : Client) e s', s.clients[i]? = some c → e.Fails c →
    step adapters s (.client i e) = some s' →
    s'.store = s.store ∧ s'.puts = s.puts ∧
      ∃ c' err, s'.clients[i]? = some c' ∧ c'.fetch = some (.sendErr err)

theorem State.Filled.integrity (hI : s.Filled adapters) : s.Integrity adapters := by
  intro k entry hk
  obtain ⟨o, ⟨c, hc, req, adapter, res, hr, ha, hf, hcomplete, rfl⟩, hkey, hdata⟩ :=
    hI.store k entry hk
  refine ⟨c, List.mem_of_getElem? hc, req, adapter, res, hr, ha, hkey, hf, hcomplete.1,
    hcomplete.2, ?_⟩
  rw [hdata, ← hkey]
  rfl

/-- A failing step of a fetch leaves it at the send of an error. -/
theorem Client.Step.sendErr_of_fails {c : Client} {store : Store} {e : Event} {effect : Effect}
    (hs : c.Step adapters store e effect) (hf : e.Fails c) :
    effect.put = none ∧ ∃ err, effect.client.fetch = some (.sendErr err) := by
  cases hs with
  | dialFails err h | writeFails err h | readFails err h | bodyFails res err h =>
    exact ⟨rfl, _, rfl⟩
  | body res o req adapter h hr ha ho => exact absurd (receive_eq_ok.1 ho).1 (hf res h)
  | _ => exact absurd hf not_false

theorem failureKeepsCache (s : State) : s.FailureKeepsCache adapters := by
  intro i c e s' hc hf h
  obtain ⟨c', effect, hc', hstep, rfl⟩ := step_client h
  obtain rfl : c = c' := Option.some.inj (hc.symm.trans hc')
  obtain ⟨hput, err, herr⟩ := hstep.sendErr_of_fails hf
  refine ⟨rfl, ?_, effect.client, err,
    List.getElem?_set_self (List.getElem?_eq_some_iff.1 hc).1, herr⟩
  show s.puts ++ (effect.put.map _).toList = s.puts
  rw [hput]
  exact List.append_nil _

/-- **Cache integrity.** In every reachable state each entry was built from a complete response to
an intercepted request with its key, and no failed fetch changes the cache. -/
theorem cache_integrity (adapters : List ObjectStorage) (s : State)
    (hs : (system adapters).Reachable s) : s.Integrity adapters ∧ s.FailureKeepsCache adapters :=
  ⟨(filled_of_reachable hs).integrity, failureKeepsCache s⟩

/-- The adapter that `run` installs. -/
def minio : ObjectStorage :=
  MinioObjectStorageAdapter.toObjectStorage ⟨Bytes.ascii "host.lima.internal:9000"⟩

/-- Client `i` of `addr` sends the request, and its fetch reads the response. -/
def missRun (i : ℕ) (addr : Addr) (req : Request) (res : Response) : List Act :=
  [.accept addr, .client i (.readRequest (.ok req)), .client i .get, .client i .doubleCheck,
    .client i (.dial none), .client i (.write none), .client i (.read (.ok res)), .client i .body,
    .client i .errChan, .client i .objChan, .put 0]

/-- One client, whose object is stored. -/
theorem cache_integrity_oneMiss :
    ∃ s : State, (system [minio]).run initial
        (missRun 0 ⟨0x0a000001, 9000⟩ getObject (okResponse [1])) = some s ∧
      (s.store.lookup (minio.extractObjectKey getObject)).isSome ∧ s.Integrity [minio] ∧
      s.FailureKeepsCache [minio] :=
  ⟨_, rfl, rfl, cache_integrity [minio] _
    ⟨missRun 0 ⟨0x0a000001, 9000⟩ getObject (okResponse [1]), rfl⟩⟩

end Proxy

end AutomaticCache
