import AutomaticCache.Proxy.Integrity

/-!
# Where a served object comes from

The object a client is served was built by the fetch for that client, or was found in the cache
under the key of its request (`Client.Source`). In the second case it is what another fetch has
built, as the store gives it back.
-/

namespace AutomaticCache

namespace Proxy

variable {adapters : List ObjectStorage} {B B' : ℕ → Object → Prop}

/-- The request of the client is intercepted, and has this key. -/
def Client.Asks (adapters : List ObjectStorage) (c : Client) (key : Bytes) : Prop :=
  ∃ req adapter, c.request = some req ∧ shouldIntercept adapters req = some adapter ∧
    adapter.extractObjectKey req = key

/-- The object is what the fetch for the client has built, or what the store gives back of an object
with the client's key that the fetch for another has built (`B`). -/
def Client.Source (adapters : List ObjectStorage) (B : ℕ → Object → Prop)
    (c : Client) (o : Object) :
    Prop :=
  (c.hit = none ∧ c.Built adapters o) ∨
    ∃ j filled, c.hit = some j ∧ B j filled ∧ c.Asks adapters filled.key ∧
      o = filled.normalize

/-- Every entry holds an object with its key that the fetch for its filler has built. -/
def FilledBy (B : ℕ → Object → Prop) (store : Store) : Prop :=
  ∀ k entry, store.lookup k = some entry →
    ∃ filled, B entry.filler filled ∧ filled.key = k ∧ entry.data = filled.encode

/-- The response is the adapter's for such an object. -/
def Client.Answers (adapters : List ObjectStorage) (B : ℕ → Object → Prop) (c : Client)
    (response : Response) : Prop :=
  ∃ o req adapter, c.Source adapters B o ∧ c.request = some req ∧
    shouldIntercept adapters req = some adapter ∧
    adapter.createLocalResponse o = .ok (.ok response)

structure Client.Serves (adapters : List ObjectStorage) (B : ℕ → Object → Prop) (c : Client) :
    Prop where
  hit : ∀ j, c.hit = some j → ∃ o, B j o ∧ c.Asks adapters o.key
  early : c.handler.Early → c.hit = none
  awaits : c.handler = .awaitErr ∨ c.handler = .awaitObj → c.hit = none
  serve : ∀ o, c.handler = .serve o → c.Source adapters B o
  send : ∀ response, c.handler = .send response → c.Answers adapters B response
  replied : c.reply ≠ none → c.handler = .done
  reply : ∀ response, c.reply = some (.served response) → c.Answers adapters B response

/-! ## Lookups -/

theorem get_of_lookup_none {store : Store} {key : Bytes} (h : store.lookup key = none) :
    BigcacheWrapper.get (bigcache 0) store key = .error BigcacheWrapper.errEntryNotFound := by
  unfold BigcacheWrapper.get bigcache
  simp only [h]

theorem get_of_lookup_some {store : Store} {key : Bytes} {entry : Entry} {o : Object}
    (h : store.lookup key = some entry) (hdata : entry.data = o.encode) :
    BigcacheWrapper.get (bigcache 0) store key = .ok o.normalize := by
  unfold BigcacheWrapper.get bigcache BigcacheWrapper.deserializeObj
  simp only [h, hdata, Object.decode_encode]

namespace Client

variable {c c' : Client} {store : Store} {e : Event} {effect : Effect}

theorem serves_accepted (targetAddr : Addr) : (accepted targetAddr).Serves adapters B where
  hit := fun _ h => nomatch h
  early := fun _ => rfl
  awaits := fun _ => rfl
  serve := fun _ h => nomatch h
  send := fun _ h => nomatch h
  replied := fun h => absurd rfl h
  reply := fun _ h => nomatch h

theorem Source.mono (hB : ∀ j o, B j o → B' j o) {o : Object} (h : c.Source adapters B o) :
    c.Source adapters B' o := by
  rcases h with h | ⟨j, filled, hj, hb, hrest⟩
  · exact Or.inl h
  · exact Or.inr ⟨j, filled, hj, hB j filled hb, hrest⟩

theorem Answers.mono (hB : ∀ j o, B j o → B' j o) {response : Response}
    (h : c.Answers adapters B response) : c.Answers adapters B' response := by
  obtain ⟨o, req, adapter, ho, hrest⟩ := h
  exact ⟨o, req, adapter, ho.mono hB, hrest⟩

theorem Serves.mono (hB : ∀ j o, B j o → B' j o) (h : c.Serves adapters B) :
    c.Serves adapters B' where
  hit := fun j hj => by
    obtain ⟨o, ho, hk⟩ := h.hit j hj
    exact ⟨o, hB j o ho, hk⟩
  early := h.early
  awaits := h.awaits
  serve := fun o ho => (h.serve o ho).mono hB
  send := fun response hr => (h.send response hr).mono hB
  replied := h.replied
  reply := fun response hr => (h.reply response hr).mono hB

/-! ## One step of a client -/

theorem Asks.extends {key : Bytes} (h : c.Asks adapters key) (hext : c.Extends c') :
    c'.Asks adapters key := by
  obtain ⟨req, adapter, hr, hrest⟩ := h
  exact ⟨req, adapter, hext.request req hr, hrest⟩

theorem Source.extends {o : Object} (h : c.Source adapters B o) (hext : c.Extends c')
    (hhit : c'.hit = c.hit) : c'.Source adapters B o := by
  rcases h with ⟨hn, hb⟩ | ⟨j, filled, hj, hb, hk, ho⟩
  · exact Or.inl ⟨hhit.trans hn, hb.extends hext⟩
  · exact Or.inr ⟨j, filled, hhit.trans hj, hb, hk.extends hext, ho⟩

theorem Answers.extends {response : Response} (h : c.Answers adapters B response)
    (hext : c.Extends c') (hhit : c'.hit = c.hit) : c'.Answers adapters B response := by
  obtain ⟨o, req, adapter, ho, hr, hrest⟩ := h
  exact ⟨o, req, adapter, ho.extends hext hhit, hext.request req hr, hrest⟩

theorem Serves.no_reply (h : c.Serves adapters B) {stage : Handler} (hh : c.handler = stage)
    (hne : stage ≠ .done) : c.reply = none := by
  by_contra hr
  exact hne (hh.symm.trans (h.replied hr))

/-- A step of the fetch alone. -/
theorem Serves.fetch (h : c.Serves adapters B) (hext : c.Extends c') (hhit : c'.hit = c.hit)
    (hh : c'.handler = c.handler) (hreply : c'.reply = c.reply) : c'.Serves adapters B where
  hit := fun j hj => by
    obtain ⟨o, ho, hk⟩ := h.hit j (hhit ▸ hj)
    exact ⟨o, ho, hk.extends hext⟩
  early := by rw [hh, hhit]; exact h.early
  awaits := by rw [hh, hhit]; exact h.awaits
  serve := fun o ho => (h.serve o (hh ▸ ho)).extends hext hhit
  send := fun response hr => (h.send response (hh ▸ hr)).extends hext hhit
  replied := by rw [hh, hreply]; exact h.replied
  reply := fun response hr => (h.reply response (hreply ▸ hr)).extends hext hhit

/-- The handler goes on without an object, and without a reply. -/
theorem Serves.without (hhit : c'.hit = none) (hreply : c'.reply = none)
    (hserve : ∀ o, c'.handler ≠ .serve o)
    (hsend : ∀ response, c'.handler ≠ .send response) :
    c'.Serves adapters B where
  hit := fun _ hj => absurd (hhit.symm.trans hj) nofun
  early := fun _ => hhit
  awaits := fun _ => hhit
  serve := fun o ho => absurd ho (hserve o)
  send := fun response hr => absurd hr (hsend response)
  replied := fun hr => absurd hreply hr
  reply := fun _ hr => absurd (hreply.symm.trans hr) nofun

/-- The handler goes on with the object it is to serve. -/
theorem Serves.served (hh : ¬ c'.handler.Early)
    (hwait : c'.handler ≠ .awaitErr ∧ c'.handler ≠ .awaitObj) (hreply : c'.reply = none)
    (hhit : ∀ j, c'.hit = some j → ∃ o, B j o ∧ c'.Asks adapters o.key)
    (hserve : ∀ o, c'.handler = .serve o → c'.Source adapters B o)
    (hsend : ∀ response, c'.handler = .send response → c'.Answers adapters B response) :
    c'.Serves adapters B where
  hit := hhit
  early := fun he => absurd he hh
  awaits := fun ha => by rcases ha with ha | ha; exacts [absurd ha hwait.1, absurd ha hwait.2]
  serve := hserve
  send := hsend
  replied := fun hr => absurd hreply hr
  reply := fun response hr => absurd (hreply.symm.trans hr) nofun

/-- The handler is done, with a reply that is not made of an object. -/
theorem Serves.finished (h : c.Serves adapters B) (hext : c.Extends c') (hhit : c'.hit = c.hit)
    (hh : c'.handler = .done) (hreply : ∀ response, c'.reply ≠ some (.served response)) :
    c'.Serves adapters B where
  hit := fun j hj => by
    obtain ⟨o, ho, hk⟩ := h.hit j (hhit ▸ hj)
    exact ⟨o, ho, hk.extends hext⟩
  early := fun he => absurd he (by rw [hh]; exact not_false)
  awaits := fun ha => by rw [hh] at ha; rcases ha with ha | ha <;> cases ha
  serve := fun o ho => absurd (hh.symm.trans ho) nofun
  send := fun response hr => absurd (hh.symm.trans hr) nofun
  replied := fun _ => hh
  reply := fun response hr => absurd hr (hreply response)

/-- What a lookup finds was built by the fetch that filled the entry. -/
theorem source_of_found {o : Object} {hit : Option ℕ} (hstore : FilledBy B store)
    (hf : Found adapters store c o hit) :
    ∃ j filled, hit = some j ∧ B j filled ∧ c.Asks adapters filled.key ∧
      o = filled.normalize := by
  obtain ⟨req, adapter, hr, ha, hget, rfl⟩ := hf
  cases hl : store.lookup (adapter.extractObjectKey req) with
  | none =>
    rw [get_of_lookup_none hl] at hget
    cases hget
  | some entry =>
    obtain ⟨filled, hb, hk, hdata⟩ := hstore _ entry hl
    rw [get_of_lookup_some hl hdata] at hget
    refine ⟨entry.filler, filled, ?_, hb, ⟨req, adapter, hr, ha, hk.symm⟩,
      (Except.ok.inj hget).symm⟩
    unfold fillerOf
    rw [hl, Option.map_some]

/-- A lookup finds an object to serve. -/
theorem Serves.found {o : Object} {hit : Option ℕ} (hreply : c.reply = none)
    (hstore : FilledBy B store) (hf : Found adapters store c o hit) :
    { c with handler := .serve o, hit := hit }.Serves adapters B := by
  obtain ⟨j, filled, rfl, hb, hk, rfl⟩ := source_of_found hstore hf
  refine .served not_false ⟨nofun, nofun⟩ hreply (fun j' hj' => ?_) (fun o' ho' => ?_) nofun
  · cases hj'
    exact ⟨filled, hb, hk⟩
  · cases ho'
    exact Or.inr ⟨j, filled, rfl, hb, hk, rfl⟩

theorem Serves.step (hok : c.Ok adapters) (h : c.Serves adapters B) (hstore : FilledBy B store)
    (hs : c.Step adapters store e effect) : effect.client.Serves adapters B := by
  have hext := hok.extends hs
  cases hs with
  | badRequest err hh =>
    refine h.finished hext rfl rfl fun response hr => ?_
    exact absurd ((h.no_reply hh nofun).symm.trans hr) nofun
  | intercepted req adapter hh ha | notIntercepted req hh ha =>
    exact .without (h.early (by rw [hh]; trivial)) (h.no_reply hh nofun) nofun nofun
  | getHit o hit hh hf => exact .found (h.no_reply hh nofun) hstore hf
  | getMiss hh =>
    exact .without (h.early (by rw [hh]; trivial)) (h.no_reply hh nofun) nofun nofun
  | doubleCheckHit o hit hh hf => exact .found (h.no_reply hh nofun) hstore hf
  | doubleCheckMiss hh =>
    exact .without (h.early (by rw [hh]; trivial)) (h.no_reply hh nofun) nofun nofun
  | dialFails | dial | writeFails | write | readFails | read | bodyFails | body =>
    exact h.fetch hext rfl rfl rfl
  | errChanErr err hh hf | errChanNil o hh hf =>
    exact .without (h.awaits (Or.inl hh)) (h.no_reply hh nofun) nofun nofun
  | objChan o hh hf =>
    have hnone := h.awaits (Or.inr hh)
    refine .served not_false ⟨nofun, nofun⟩ (h.no_reply hh nofun) (fun j hj => ?_)
      (fun o' ho' => ?_) nofun
    · exact absurd (hnone.symm.trans hj) nofun
    · cases ho'
      exact Or.inl ⟨hnone, (hok.built o (Or.inr hf)).extends hext⟩
  | servePanics o p hh => exact h
  | serveFails o hh =>
    exact .without rfl (h.no_reply hh nofun) nofun nofun
  | serve o req adapter response hh hr ha ho =>
    refine .served not_false ⟨nofun, nofun⟩ (h.no_reply hh nofun) h.hit nofun
      fun response' hr' => ?_
    cases hr'
    exact ⟨o, req, adapter, (h.serve o hh).extends hext rfl, hr, ha, ho⟩
  | sendFails response err hh =>
    exact .without rfl (h.no_reply hh nofun) nofun nofun
  | send response hh =>
    refine ⟨h.hit, nofun, ?_, nofun, nofun, fun _ => rfl, fun response' hr' => ?_⟩
    · rintro (ha | ha) <;> cases ha
    · cases hr'
      exact (h.send response hh).extends hext rfl
  | dialForwardFails err hh => exact h.finished hext rfl rfl nofun
  | dialForward hh =>
    refine .served not_false ⟨nofun, nofun⟩ (h.no_reply hh nofun) h.hit nofun nofun
  | forwardFails err hh => exact h.finished hext rfl rfl nofun
  | forward res hh => exact h.finished hext rfl rfl nofun

end Client

/-! ## Every run -/

variable {s s' : State}

/-- Every client is served what was built for it, or what the cache had for its key. -/
def State.AllServe (adapters : List ObjectStorage) (s : State) : Prop :=
  ∀ c ∈ s.clients, c.Serves adapters (s.BuiltBy adapters)

theorem allServe_step {a : Act} (hF : s.Filled adapters) (hI : s.AllServe adapters)
    (h : step adapters s a = some s') : s'.AllServe adapters := by
  have hext := extends_step hF h
  have hmono : ∀ j o, s.BuiltBy adapters j o → s'.BuiltBy adapters j o :=
    fun j o hb => hb.extends hext
  have hold : ∀ c ∈ s.clients, c.Serves adapters (s'.BuiltBy adapters) :=
    fun c hc => (hI c hc).mono hmono
  cases a with
  | accept targetAddr =>
    obtain rfl := step_accept h
    intro c hc
    rcases List.mem_append.1 hc with hc | hc
    · exact hold c hc
    · rw [List.mem_singleton.1 hc]
      exact Client.serves_accepted targetAddr
  | client i e =>
    obtain ⟨c, effect, hc, hstep, rfl⟩ := step_client h
    have hmem := List.mem_of_getElem? hc
    intro d hd
    rcases List.mem_or_eq_of_mem_set hd with hd | rfl
    · exact hold d hd
    · exact ((hI c hmem).step (hF.ok c hmem) hF.store hstep).mono hmono
  | put n => obtain ⟨p, -, rfl⟩ := step_put h; exact hold
  | putFails n => obtain rfl := step_putFails h; exact hold
  | drop key => obtain rfl := step_drop h; exact hold

theorem allServe_of_reachable (h : (system adapters).Reachable s) : s.AllServe adapters := by
  have hkeep : ∀ s a s', (s.Filled adapters ∧ s.AllServe adapters) →
      (system adapters).step s a = some s' → s'.Filled adapters ∧ s'.AllServe adapters :=
    fun _ _ _ hI hs => ⟨filled_step hI.1 hs, allServe_step hI.1 hI.2 hs⟩
  have hinitial : initial.Filled adapters ∧ initial.AllServe adapters :=
    ⟨filled_initial, fun _ hc => absurd hc List.not_mem_nil⟩
  exact (h.invariant hinitial hkeep).2

/-! ## Minio adapters -/

/-- A Minio adapter for each of the hosts. -/
def minioAdapters (hosts : List Bytes) : List ObjectStorage :=
  hosts.map fun host => MinioObjectStorageAdapter.toObjectStorage ⟨host⟩

variable {hosts : List Bytes} {c : Client} {req : Request} {adapter : ObjectStorage}

theorem minio_of_shouldIntercept (h : shouldIntercept (minioAdapters hosts) req = some adapter) :
    adapter.extractObjectKey = MinioObjectStorageAdapter.extractObjectKey ∧
      adapter.createLocalResponse = MinioObjectStorageAdapter.createLocalResponse := by
  obtain ⟨host, -, rfl⟩ := List.mem_map.1 (List.mem_of_find?_eq_some h)
  exact ⟨rfl, rfl⟩

theorem Client.Asks.key_eq {key : Bytes} (h : c.Asks (minioAdapters hosts) key)
    (hreq : c.request = some req) : MinioObjectStorageAdapter.extractObjectKey req = key := by
  obtain ⟨req', adapter, hreq', ha, rfl⟩ := h
  obtain rfl : req = req' := Option.some.inj (hreq.symm.trans hreq')
  rw [(minio_of_shouldIntercept ha).1]

theorem Client.Built.key_eq {o : Object} (h : c.Built (minioAdapters hosts) o)
    (hreq : c.request = some req) : (shouldIntercept (minioAdapters hosts) req).isSome ∧
      MinioObjectStorageAdapter.extractObjectKey req = o.key := by
  obtain ⟨req', adapter, res, hreq', ha, -, -, rfl⟩ := h
  obtain rfl : req = req' := Option.some.inj (hreq.symm.trans hreq')
  rw [(minio_of_shouldIntercept ha).1]
  exact ⟨Option.isSome_iff_exists.2 ⟨adapter, ha⟩, rfl⟩

end Proxy

end AutomaticCache
