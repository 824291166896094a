import AutomaticCache.Proxy.Asked

/-!
# One request, one response

The client's connection takes bytes until, possibly, it breaks, and then nothing more. A handler
writes to it a second time only when the first time failed, and since a response that the proxy
makes itself is whole, it failed because the connection broke. So what the client gets is of one
response (`one_response`).
-/

namespace AutomaticCache

open Bytes

/-- What an adapter makes of an object with data can be written to its end. -/
structure ObjectStorage.MakesWhole (adapter : ObjectStorage) : Prop where
  no_panic : ∀ o panic, o.data ≠ none → adapter.createLocalResponse o ≠ .error panic
  body : ∀ o response, adapter.createLocalResponse o = .ok (.ok response) →
    response.body.err = none
  length : ∀ o response, adapter.createLocalResponse o = .ok (.ok response) →
    response.contentLength = response.body.data.length

theorem MinioObjectStorageAdapter.makesWhole (mosa : MinioObjectStorageAdapter) :
    mosa.toObjectStorage.MakesWhole where
  no_panic := by
    rintro ⟨key, data, header⟩ panic hdata h
    cases data with
    | none => exact hdata rfl
    | some data => cases h
  body := by
    rintro ⟨key, data, header⟩ response h
    cases data <;> cases h
    rfl
  length := by
    rintro ⟨key, data, header⟩ response h
    cases data <;> cases h
    rfl

namespace Proxy

open Goroutines

/-! ## The client's connection -/

/-- With `room`, it takes that many more bytes, and then all writes fail. -/
structure ClientConn where
  delivered : Bytes
  room : Option ℕ
  closed : Bool

/-- `syscall.EPIPE`. -/
def errBrokenPipe : GoError := .new "broken pipe"

def ClientConn.write (conn : ClientConn) (b : Bytes) : Option GoError × ClientConn :=
  match conn.room with
  | none => (none, { conn with delivered := conn.delivered ++ b })
  | some n =>
    if b.length ≤ n then
      (none, { conn with delivered := conn.delivered ++ b, room := some (n - b.length) })
    else (some errBrokenPipe, { conn with delivered := conn.delivered ++ b.take n, room := some 0 })

theorem ClientConn.delivered_write (conn : ClientConn) (b : Bytes) :
    ∃ b', b' <+: b ∧ (conn.write b).2.delivered = conn.delivered ++ b' ∧
      (conn.room = none → b' = b) := by
  unfold ClientConn.write
  cases conn.room with
  | none => exact ⟨b, List.prefix_rfl, rfl, fun _ => rfl⟩
  | some n =>
    dsimp only
    by_cases hle : b.length ≤ n
    · rw [if_pos hle]
      exact ⟨b, List.prefix_rfl, rfl, fun _ => rfl⟩
    · rw [if_neg hle]
      exact ⟨b.take n, List.take_prefix .., rfl, fun h => absurd h (Option.some_ne_none n)⟩

/-- After a write that failed, nothing is delivered. -/
theorem ClientConn.delivered_write_of_broken {conn : ClientConn} {b : Bytes} {err : GoError}
    (h : (conn.write b).1 = some err) (b' : Bytes) :
    ((conn.write b).2.write b').2.delivered = (conn.write b).2.delivered := by
  unfold ClientConn.write at h
  cases hroom : conn.room with
  | none =>
    rw [hroom] at h
    cases h
  | some n =>
    rw [hroom] at h
    dsimp only at h
    split_ifs at h with hn
    have hbroken : (conn.write b).2.room = some 0 := by
      unfold ClientConn.write
      rw [hroom]
      dsimp only
      rw [if_neg hn]
    rw [ClientConn.write, hbroken]
    dsimp only
    split_ifs with hb'
    · rw [List.eq_nil_of_length_eq_zero (Nat.le_zero.1 hb'), List.append_nil]
    · rw [List.take_zero, List.append_nil]

/-! ## The world of a handler -/

section world

variable {ω : Type} (env : (i : ProxyOp) → ω → i.Ans × ω)
  (render : ω → Response → Bytes × Option GoError)

/-- All but the client's connection is `env`. `render` is what `response.Write` hands to its writer,
as long as that takes it, and how it then ends. It looks at more of a response than `Response` has,
such as the transfer encoding, which `env` knows. -/
def clientWorld : (i : ProxyOp) → ClientConn × ω → i.Ans × (ClientConn × ω)
  | .write b, (conn, w) => ((conn.write b).1, (conn.write b).2, (env (.write b) w).2)
  | .respond response, (conn, w) =>
    ((conn.write (render w response).1).1.or (render w response).2,
      (conn.write (render w response).1).2, (env (.respond response) w).2)
  | .close, (conn, w) => ((), { conn with closed := true }, (env .close w).2)
  | i, (conn, w) => ((env i w).1, conn, (env i w).2)

/-- What the handlers rely on in `response.Write`: it fails of itself only where the body does or
has not the length it should, and what it writes of a response whose body breaks off is the
beginning of what it writes where the body goes on. -/
structure Renders : Prop where
  whole : ∀ w response, response.body.err = none →
    response.contentLength = response.body.data.length → (render w response).2 = none
  broken : ∀ w response, ∃ rest, (render w response).1 <+:
    (render w { response with body := ⟨response.body.data ++ rest, none⟩ }).1

/-- A whole response: the one with status 503 that a handler writes itself, or one with its whole
body. -/
def Serialized (b : Bytes) : Prop :=
  b = serviceUnavailable ∨ ∃ w response, response.body.err = none ∧ b = (render w response).1

abbrev Trace := List (Σ i : ProxyOp, i.Ans)

/-- The client got the beginning of one response, and was hung up on. Where its connection does not
break and the body of what was written was whole, it got the whole response. -/
structure OneResponse (room : Option ℕ) (t : (ClientConn × ω) × Trace) : Prop where
  closed : t.1.1.closed = true
  one : ∃ b, Serialized render b ∧ t.1.1.delivered <+: b
  whole :
    room = none →
    (∀ response err, (⟨.respond response, err⟩ : Σ i : ProxyOp, i.Ans) ∈ t.2 →
    response.body.err = none) → Serialized render t.1.1.delivered

/-- Not asked of the client's connection. -/
def ProxyOp.OffClient : ProxyOp → Prop
  | .readRequest | .write _ | .respond _ | .close => False
  | _ => True

/-- A cache's `Get` does not ask anything of the client's connection of itself. -/
def Cache.OffClient (cache : Cache ProxyM) : Prop :=
  ∀ (key : Bytes) (init : Initializer ProxyM), init.Only ProxyOp.OffClient →
    (cache.Get key (some init)).Only ProxyOp.OffClient

variable {env render}

theorem clientWorld_offClient {i : ProxyOp} (hi : i.OffClient) (s : ClientConn × ω) :
    clientWorld env render i s = ((env i s.2).1, s.1, (env i s.2).2) := by
  cases i <;> first | rfl | exact hi.elim

/-! ## What is asked of others -/

theorem retrieveInline_offClient (req : Request) (targetAddr : Addr) (objectKey : Bytes) :
    (retrieveInline req targetAddr objectKey).Only ProxyOp.OffClient :=
  retrieveInline_only trivial (fun _ => trivial) (fun _ => trivial) objectKey

theorem CacheKind.offClient (kind : CacheKind) : (kind.cache ask).OffClient := by
  intro key init hinit
  refine kind.get_only trivial (fun _ _ => trivial) (fun _ _ => trivial) hinit
    (Q := fun _ => True) ?_
  exact .of_forall (fun _ _ _ => trivial) init

/-- A program that asks nothing of the client's connection leaves it as it is, and does what it does
in `env`. -/
theorem exec_offClient {α : Type} {p : ProxyM α} (hp : p.Only ProxyOp.OffClient)
    (s : (ClientConn × ω) × Trace) :
    (p.exec (Prog.recording (clientWorld env render)) s).1 = (p.exec env s.1.2).1 ∧
      (p.exec (Prog.recording (clientWorld env render)) s).2.1.1 = s.1.1 := by
  have hexec := hp.exec (h := Prog.recording (clientWorld env render)) (g := env)
    (R := fun t w => t.1 = (s.1.1, w)) (fun i t w hi ht => ?_) (w := s) rfl
  · exact ⟨hexec.1, by rw [hexec.2]⟩
  · obtain ⟨t, trace⟩ := t
    obtain rfl : t = (s.1.1, w) := ht
    show (clientWorld env render i (s.1.1, w)).1 = _ ∧ (clientWorld env render i (s.1.1, w)).2 = _
    rw [clientWorld_offClient hi]
    exact ⟨rfl, rfl⟩

/-! ## What is written -/

/-- These bytes are what some write was to deliver. -/
def Wrote (render : ω → Response → Bytes × Option GoError) (trace : Trace) (b : Bytes) :
    Prop :=
  b = serviceUnavailable ∨ ∃ w response err,
    (⟨.respond response, err⟩ : Σ i : ProxyOp, i.Ans) ∈ trace ∧ b = (render w response).1

theorem Wrote.mono {trace trace' : Trace} {b : Bytes} (h : Wrote render trace b)
    (ht : trace <+: trace') : Wrote render trace' b := by
  rcases h with h | ⟨w, response, err, hmem, hb⟩
  · exact Or.inl h
  · exact Or.inr ⟨w, response, err, ht.subset hmem, hb⟩

variable (env render) in
/-- Whatever the program meets, it writes to the client's connection once. -/
structure WritesOnce {α : Type} (p : ProxyM α) : Prop where
  exec : ∀ s : (ClientConn × ω) × Trace, ∃ b,
    Wrote render (p.exec (Prog.recording (clientWorld env render)) s).2.2 b ∧
      (p.exec (Prog.recording (clientWorld env render)) s).2.1.1 = (s.1.1.write b).2

section rules

variable {α β : Type}

theorem WritesOnce.bind {p : ProxyM α} {f : α → ProxyM β} (hp : p.Only ProxyOp.OffClient)
    (hf : ∀ a, WritesOnce env render (f a)) : WritesOnce env render (p >>= f) := by
  constructor
  intro s
  rw [Prog.exec_bind, ← (exec_offClient hp s).2]
  exact (hf _).exec _

theorem WritesOnce.map {p : ProxyM α} (hp : WritesOnce env render p) (f : α → β) :
    WritesOnce env render (p >>= fun a => .ret (f a)) := by
  constructor
  intro s
  rw [Prog.exec_bind]
  exact hp.exec s

theorem WritesOnce.write : WritesOnce env render (ask (.write serviceUnavailable)) :=
  ⟨fun _ => ⟨serviceUnavailable, Or.inl rfl, rfl⟩⟩

theorem WritesOnce.respond (response : Response) :
    WritesOnce env render (ask (.respond response)) := by
  constructor
  intro s
  exact ⟨_, Or.inr ⟨s.1.2, response, _, List.mem_append_right _ (List.mem_singleton.2 rfl),
    rfl⟩, rfl⟩

end rules

variable (env render) in
theorem forward_writesOnce (targetAddr : Addr) (req : Request) :
    WritesOnce env render (forward ask targetAddr req) := by
  refine .bind (ask_only (i := .dial targetAddr) trivial) fun dialed => ?_
  cases dialed with
  | error _ => exact .map .write _
  | ok targetConn =>
    refine .bind (ask_only (i := .writeRequest targetConn req) trivial) fun _ => ?_
    refine .bind (ask_only (i := .readResponse targetConn req) trivial) fun read => ?_
    cases read with
    | error _ => exact .map .write _
    | ok res => exact .map (.respond res) _

variable (env render) in
/-- Whatever it meets, the handler ends without a panic, and the client gets what one write
delivers. -/
structure AnswersOnce (p : ProxyM (Except Panic Unit)) : Prop where
  outcome : ∀ s : (ClientConn × ω) × Trace,
    (p.exec (Prog.recording (clientWorld env render)) s).1 = .ok ()
  delivers : ∀ s : (ClientConn × ω) × Trace, ∃ b,
    Wrote render (p.exec (Prog.recording (clientWorld env render)) s).2.2 b ∧
      (p.exec (Prog.recording (clientWorld env render)) s).2.1.1.delivered =
      (s.1.1.write b).2.delivered

theorem WritesOnce.answersOnce {p : ProxyM Unit} (hp : WritesOnce env render p) :
    AnswersOnce env render (p >>= fun _ => .ret (.ok ())) where
  outcome := fun s => by rw [Prog.exec_bind]; rfl
  delivers := fun s => by
    obtain ⟨b, hb, hconn⟩ := (hp.map fun _ => Except.ok (ε := Panic) ()).exec s
    exact ⟨b, hb, congrArg ClientConn.delivered hconn⟩

theorem AnswersOnce.bind {α : Type} {p : ProxyM α} {f : α → ProxyM (Except Panic Unit)}
    (hp : p.Only ProxyOp.OffClient) (hf : ∀ w, AnswersOnce env render (f (p.exec env w).1)) :
    AnswersOnce env render (p >>= f) where
  outcome := fun s => by
    rw [Prog.exec_bind, (exec_offClient hp s).1]
    exact (hf _).outcome _
  delivers := fun s => by
    rw [Prog.exec_bind, (exec_offClient hp s).1, ← (exec_offClient hp s).2]
    exact (hf _).delivers _

/-- A response that the proxy made is written, and only if that fails, the request is forwarded. -/
theorem AnswersOnce.respond (hrender : Renders render) {response : Response}
    (hbody : response.body.err = none) (hlength : response.contentLength =
      response.body.data.length)
    {f : Option GoError → ProxyM (Except Panic Unit)} (hnone : f none = .ret (.ok ()))
    (hsome : ∀ err, AnswersOnce env render (f (some err))) :
    AnswersOnce env render (ask (.respond response) >>= f) := by
  have hsent (s : (ClientConn × ω) × Trace) : (ask (.respond response)).exec
      (Prog.recording (clientWorld env render)) s =
        ((s.1.1.write (render s.1.2 response).1).1, (((s.1.1.write (render s.1.2 response).1).2,
          (env (.respond response) s.1.2).2),
          s.2 ++ [⟨.respond response, (s.1.1.write (render s.1.2 response).1).1⟩])) := by
    dsimp only [ask, Prog.exec, Prog.recording, clientWorld]
    rw [hrender.whole s.1.2 response hbody hlength, Option.or_none]
  have hwrote (w : ω) (trace : Trace) (err : Option GoError) :
      Wrote render (trace ++ [⟨.respond response, err⟩]) (render w response).1 :=
    Or.inr ⟨w, response, err, List.mem_append_right _ (List.mem_singleton.2 rfl), rfl⟩
  constructor
  · intro s
    rw [Prog.exec_bind, hsent]
    cases (s.1.1.write (render s.1.2 response).1).1 with
    | none => rw [hnone]; rfl
    | some err => exact (hsome err).outcome _
  · intro s
    rw [Prog.exec_bind, hsent]
    cases hfails : (s.1.1.write (render s.1.2 response).1).1 with
    | none =>
      rw [hnone]
      exact ⟨_, hwrote .., rfl⟩
    | some err =>
      -- the connection is broken, and what is written next is not delivered
      let s' : (ClientConn × ω) × Trace := (((s.1.1.write (render s.1.2 response).1).2,
        (env (.respond response) s.1.2).2), s.2 ++ [⟨.respond response, some err⟩])
      obtain ⟨b, -, hdelivered⟩ := (hsome err).delivers s'
      have htrace := Prog.exec_recording_prefix (clientWorld env render) (f (some err)) s'
      exact ⟨_, (hwrote s.1.2 s.2 (some err)).mono htrace,
        hdelivered.trans (ClientConn.delivered_write_of_broken hfails b)⟩

variable {cache : Cache ProxyM} {adapters : List ObjectStorage} {targetAddr : Addr}

theorem handleRequest_answersOnce (hrender : Renders render) (hcache : cache.OffClient)
    (hadapters : ∀ adapter ∈ adapters, adapter.MakesWhole) {request : Request}
    (hdata : ∀ key w o,
      ((cache.Get key (some (retrieveInline request targetAddr key))).exec env w).1 =
      .ok o → o.data ≠ none) :
    AnswersOnce env render (handleRequest ask retrieveInline cache adapters
      targetAddr request) := by
  have hforward := forward_writesOnce env render targetAddr request
  unfold handleRequest
  cases hadapter : shouldIntercept adapters request with
  | none => exact hforward.answersOnce
  | some adapter =>
    have hmakes := hadapters adapter (List.mem_of_find?_eq_some hadapter)
    have hget := hcache (adapter.extractObjectKey request) _
      (retrieveInline_offClient request targetAddr (adapter.extractObjectKey request))
    refine .bind hget fun w => ?_
    cases hgot : ((cache.Get (adapter.extractObjectKey request)
        (some (retrieveInline request targetAddr (adapter.extractObjectKey request)))).exec env
          w).1 with
    | error _ => exact hforward.answersOnce
    | ok cachedObj =>
      have hdata := hdata _ _ _ hgot
      dsimp only
      cases hlocal : adapter.createLocalResponse cachedObj with
      | error panic => exact absurd hlocal (hmakes.no_panic cachedObj panic hdata)
      | ok result =>
        cases result with
        | error _ => exact hforward.answersOnce
        | ok response =>
          exact .respond hrender (hmakes.body cachedObj response hlocal)
            (hmakes.length cachedObj response hlocal) rfl fun _ => hforward.answersOnce

theorem AnswersOnce.oneResponse (hrender : Renders render) {p : ProxyM (Except Panic Unit)}
    (hp : AnswersOnce env render p) (room : Option ℕ) (w : ω) (trace : Trace) :
    OneResponse render room ((deferClose ask p).exec (Prog.recording (clientWorld env render))
      ((⟨[], room, false⟩, w), trace)).2 := by
  obtain ⟨b, hb, hdelivered⟩ := hp.delivers ((⟨[], room, false⟩, w), trace)
  obtain ⟨b', hb', hwrite, hroom⟩ := ClientConn.delivered_write ⟨[], room, false⟩ b
  rw [hwrite, List.nil_append] at hdelivered
  rw [exec_deferClose]
  refine ⟨rfl, ?_, fun hnever hcomplete => ?_⟩
  · dsimp only [Prog.recording, clientWorld]
    rw [hdelivered]
    rcases hb with rfl | ⟨w', response, err, -, rfl⟩
    · exact ⟨_, Or.inl rfl, hb'⟩
    · obtain ⟨rest, hrest⟩ := hrender.broken w' response
      exact ⟨_, Or.inr ⟨w', _, rfl, rfl⟩, hb'.trans hrest⟩
  · dsimp only [Prog.recording, clientWorld]
    rw [hdelivered, hroom hnever]
    rcases hb with rfl | ⟨w', response, err, hmem, rfl⟩
    · exact Or.inl rfl
    · exact Or.inr ⟨w', response, hcomplete response err (List.mem_append_left _ hmem), rfl⟩

/-- **One response.** With any cache whose objects have data, adapters that make whole responses,
and whatever the origin, the store and the client's connection do: in every schedule, the handler of
a request that is read returns, nobody is left waiting, and the client got the beginning of one
response. -/
theorem one_response (env : (i : ProxyOp) → ω → i.Ans × ω)
    (render : ω → Response → Bytes × Option GoError) (hrender : Renders render)
    (cache : Cache HandlerM) (inline : Cache ProxyM) (hcache : cache.BehavesAs inline)
    (hoff : inline.OffClient) (adapters : List ObjectStorage)
    (hadapters : ∀ adapter ∈ adapters, adapter.MakesWhole) (targetAddr : Addr)
    (request : Request) (w : ω) (room : Option ℕ) (hread : (env .readRequest w).1 = .ok request)
    (hdata : ∀ key w o,
      ((inline.Get key (some (retrieveInline request targetAddr key))).exec env w).1 =
      .ok o → o.data ≠ none) :
    let internal := Goroutines.system (Prog.recording (clientWorld env render)) Retrieval.goroutine
      (handleWith perform retrieveObjectFromRemote cache adapters targetAddr)
      ((⟨[], room, false⟩, w), [])
    internal.Completes internal.init fun t =>
      t.main = .ret (.ok ()) ∧ Ended t.goroutines ∧ OneResponse render room t.world := by
  have hcompletes := BehavesAs.completes (h := Prog.recording (clientWorld env render))
    (handleWith_behavesAs hcache adapters targetAddr) ((⟨[], room, false⟩, w), [])
  refine hcompletes.mono fun t ht => ?_
  have hanswers := handleRequest_answersOnce hrender hoff hadapters hdata
  have hexec := handleWith_exec (Prog.recording (clientWorld env render))
    (w := ((⟨[], room, false⟩, w), [])) adapters targetAddr inline hread
  rw [hexec] at ht
  refine ⟨ht.1.trans ?_, ht.2.1, ?_⟩
  · rw [exec_deferClose, hanswers.outcome]
  · rw [ht.2.2]
    exact hanswers.oneResponse hrender room _ _

end world

/-- What `response.Write` writes of a response with status 200, some data and no headers. -/
def renderOk (_ : Unit) (response : Response) : Bytes × Option GoError :=
  (ascii "HTTP/1.1 200 OK\r\nContent-Length: " ++ ascii (toString response.contentLength) ++
    ascii "\r\n\r\n" ++ response.body.data, response.body.err)

theorem renders_renderOk : Renders renderOk where
  whole := fun _ _ h _ => h
  broken := fun _ response => ⟨[], by
    rw [List.append_nil]
    exact List.prefix_rfl⟩

/-- A miss, and the client's connection breaks after five bytes. -/
theorem one_response_broken :
    let internal := Goroutines.system (Prog.recording (clientWorld missWorld renderOk))
      Retrieval.goroutine (handleHttpInternal .bigcache
        [MinioObjectStorageAdapter.toObjectStorage ⟨ascii "host.lima.internal:9000"⟩]
        ⟨0x0a000001, 9000⟩)
      ((⟨[], some 5, false⟩, ()), [])
    internal.Completes internal.init fun t =>
      t.main = .ret (.ok ()) ∧ Ended t.goroutines ∧ OneResponse renderOk (some 5) t.world :=
  one_response missWorld renderOk renders_renderOk _ _ (get_behavesAs .bigcache)
    (CacheKind.offClient .bigcache) _
    (List.forall_mem_singleton.2 (MinioObjectStorageAdapter.makesWhole _)) _
      getObject () (some 5) rfl
    fun _ _ _ h => by cases h; exact nofun

end Proxy

end AutomaticCache
