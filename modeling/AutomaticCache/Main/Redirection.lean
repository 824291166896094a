import AutomaticCache.Bpf.Recovery
import AutomaticCache.Main.Destination

/-!
# From a client's connect to the proxy's

The hooks, the start-up and the clients of a host together with what the proxy does with the
connections it accepts: it queries each one, and the handler of the connection dials. A dial is
again a `connect()` that `cg_connect4` sees, made by the proxy's process.

Where the clients' `connect()` was redirected, the proxy's goes where the client's should have gone,
and is not redirected itself.
-/

namespace AutomaticCache

namespace Main

open Endian Runs Proxy

/-- A handler of a connection, which dials nothing but the address it is called with. `η` is what
its surroundings answer it with. -/
structure Dialer (η ζ β : Type) where
  call : η → Addr → System ζ β
  /-- What it has dialed so far. -/
  dialed : ζ → List Addr
  dialed_eq : ∀ e targetAddr z, (call e targetAddr).Reachable z →
    ∀ a ∈ dialed z, a = targetAddr

/-- The address of a dial. -/
def dialedAddr : (Σ i : ProxyOp, i.Ans) → Option Addr
  | ⟨.dial a, _⟩ => some a
  | _ => none

theorem dial_of_dialedAddr {x : Σ i : ProxyOp, i.Ans} {a : Addr} (h : dialedAddr x = some a) :
    x.1 = .dial a := by
  obtain ⟨i, r⟩ := x
  cases i <;> cases h
  rfl

/-- `HandleHttp` of `HttpCachingProxy`. -/
def Dialer.handleHttp {ω : Type} (h : (i : ProxyOp) → ω → i.Ans × ω) (kind : CacheKind)
    (adapters : List ObjectStorage) :
    Dialer ω (Goroutines.State ProxyOp Chan Retrieval Chan.Val ProxyOp.Ans (Except Panic Unit)
      (ω × List (Σ i : ProxyOp, i.Ans))) Goroutines.Act where
  call := fun w targetAddr => http h kind adapters w (some targetAddr)
  dialed := fun s => s.world.2.filterMap dialedAddr
  dialed_eq := fun w targetAddr s hs a ha => by
    obtain ⟨x, hx, hdial⟩ := List.mem_filterMap.1 ha
    have hanswer := (guards_handleHttp targetAddr ω h kind adapters w s hs).dialed a
      ⟨x, hx, dial_of_dialedAddr hdial⟩
    exact (Option.some.inj hanswer).symm

/-- `forwardConnection`. -/
def Dialer.forwardConnection : Dialer Unit Bypass ForwardAct where
  call := fun _ targetAddr => bypassCall (some targetAddr)
  dialed := fun s => s.dialed
  dialed_eq := fun _ targetAddr s hs a ha =>
    (Option.some.inj ((guards_forwardConnection targetAddr s hs).dialed a ha)).symm

/-- A call of the handler for connection `conn`. -/
structure Handled (η ζ : Type) where
  conn : ℕ
  surroundings : η
  targetAddr : Addr
  point : ζ

/-- A `connect()` of a call: attempt number `conn`. -/
structure Dialed where
  call : ℕ
  conn : ℕ

structure Host (cap : ℕ) (η ζ : Type) where
  net : Deployment cap
  calls : List (Handled η ζ)
  dials : List Dialed

inductive HostAct (η β : Type)
  /-- A step of the clients or the start-up, or an `accept`. -/
  | net (a : AutomaticCache.Act)
  /-- The proxy queries connection `conn`, and its handler begins. -/
  | query (conn : ℕ) (retval : ℤ) (surroundings : η)
  | call (k : ℕ) (b : β)
  /-- The `connect()` of a dial of call `k`, in a thread of the proxy and on a new socket. -/
  | dial (k : ℕ) (targetAddr : Addr) (thread : BitVec 32) (cookie : Cookie)

/-- The step is neither the proxy's query nor a `connect()` of the proxy. -/
def ofOthers (pid : BitVec 64) : AutomaticCache.Act → Bool
  | .connect _ pidTgid _ => pidTgid >>> 32 ≠ pid
  | .query _ _ => false
  | _ => true

variable {cap : ℕ} {η ζ β : Type} (bo : ByteOrder) (tgid : BitVec 32)

/-- What the step is to the hooks. -/
def HostAct.net? : HostAct η β → Option AutomaticCache.Act
  | .net a => some a
  | .query i retval _ => some (.query i retval)
  | .call _ _ => none
  | .dial _ a thread cookie => some (.connect cookie (tgid ++ thread) (.ofConnect bo a.ip a.port))

/-- What the query of an accepted connection meets, whose two calls before `getsockopt` succeed.
`errno` is the error of a return value that is not zero. -/
def queryOf (errno : ℤ → GoError) (s : Deployment cap) (c : Conn) (retval : ℤ) : Query :=
  let ctx := (s.sockOptHook bo (c.queryCtx bo retval)).2.2
  ⟨none, some (if ctx.retval = 0 then none else some (errno ctx.retval),
    .ofMemory bo ctx.optval)⟩

namespace Host

variable (errno : ℤ → GoError) (D : Dialer η ζ β)

def step (s : Host cap η ζ) : HostAct η β → Option (Host cap η ζ)
  | .net a =>
    if ofOthers (tgid.setWidth 64) a then
      (Deployment.step bo (tgid.setWidth 64) s.net a).map fun net => { s with net := net }
    else none
  | .query i retval e =>
    s.net.conns[i]?.bind fun c =>
      (Deployment.step bo (tgid.setWidth 64) s.net (.query i retval)).map fun net =>
        -- the error of the query is only logged
        match (getOriginalTargetFromConn (queryOf bo errno s.net c retval)).1 with
        | some targetAddr =>
          { s with net := net, calls := s.calls ++
            [⟨i, e, targetAddr, (D.call e targetAddr).init⟩] }
        | none => { s with net := net }
  | .call k b =>
    s.calls[k]?.bind fun c =>
      ((D.call c.surroundings c.targetAddr).step c.point b).map fun z =>
        { s with calls := s.calls.set k { c with point := z } }
  | .dial k a thread cookie =>
    s.calls[k]?.bind fun c =>
      if a ∈ D.dialed c.point then
        (Deployment.step bo (tgid.setWidth 64) s.net
          (.connect cookie (tgid ++ thread) (.ofConnect bo a.ip a.port))).map fun net =>
            { s with net := net, dials := s.dials ++ [⟨k, s.net.conns.length⟩] }
      else none

def system (cap : ℕ) : System (Host cap η ζ) (HostAct η β) where
  init := ⟨.initial, [], []⟩
  step := step bo tgid errno D

/-- What a step can do. -/
inductive Step (s : Host cap η ζ) : HostAct η β → Host cap η ζ → Prop
  | net (a : AutomaticCache.Act) (net : Deployment cap) (ha : ofOthers (tgid.setWidth 64) a = true)
    (hnet : Deployment.step bo (tgid.setWidth 64) s.net a = some net) :
    Step s (.net a) { s with net := net }
  | query (i : ℕ) (retval : ℤ) (e : η) (c : Conn) (net : Deployment cap)
    (hc : s.net.conns[i]? = some c) (hnet : Deployment.step bo (tgid.setWidth 64) s.net
      (.query i retval) = some net)
    (targetAddr : Addr)
    (ht : (getOriginalTargetFromConn (queryOf bo errno s.net c retval)).1 = some targetAddr) :
    Step s (.query i retval e)
      { s with net := net, calls := s.calls ++
        [⟨i, e, targetAddr, (D.call e targetAddr).init⟩] }
  | call (k : ℕ) (b : β) (c : Handled η ζ) (z : ζ) (hc : s.calls[k]? = some c)
    (hz : (D.call c.surroundings c.targetAddr).step c.point b = some z) :
    Step s (.call k b) { s with calls := s.calls.set k { c with point := z } }
  | dial (k : ℕ) (a : Addr) (thread : BitVec 32) (cookie : Cookie) (c : Handled η ζ)
    (net : Deployment cap) (hc : s.calls[k]? = some c) (ha : a ∈ D.dialed c.point)
    (hnet : Deployment.step bo (tgid.setWidth 64) s.net
      (.connect cookie (tgid ++ thread) (.ofConnect bo a.ip a.port)) = some net) :
    Step s (.dial k a thread cookie)
      { s with net := net, dials := s.dials ++ [⟨k, s.net.conns.length⟩] }

variable {bo tgid errno D} {s s' : Host cap η ζ} {b : HostAct η β}

theorem step_of_step (h : step bo tgid errno D s b = some s') : Step bo tgid errno D s b s' := by
  cases b with
  | net a =>
    simp only [step] at h
    split_ifs at h with ha
    obtain ⟨net, hnet, rfl⟩ := Option.map_eq_some_iff.1 h
    exact .net a net ha hnet
  | query i retval e =>
    obtain ⟨c, hc, h⟩ := Option.bind_eq_some_iff.1 h
    obtain ⟨net, hnet, rfl⟩ := Option.map_eq_some_iff.1 h
    exact .query i retval e c net hc hnet _ rfl
  | call k b =>
    obtain ⟨c, hc, h⟩ := Option.bind_eq_some_iff.1 h
    obtain ⟨z, hz, rfl⟩ := Option.map_eq_some_iff.1 h
    exact .call k b c z hc hz
  | dial k a thread cookie =>
    obtain ⟨c, hc, h⟩ := Option.bind_eq_some_iff.1 h
    split_ifs at h with ha
    obtain ⟨net, hnet, rfl⟩ := Option.map_eq_some_iff.1 h
    exact .dial k a thread cookie c net hc ha hnet

end Host

/-! ## What a client asked for -/

variable {bo}

theorem ofConnect_of_redirects {conf : Config} {pidTgid : BitVec 64} {ctx : BpfSockAddr}
    (h : Redirects bo conf pidTgid ctx) : ctx = .ofConnect bo (ntohl bo ctx.userIp4) minioPort := by
  obtain ⟨hfamily, hprotocol, hport, -⟩ := h
  obtain ⟨family, ip4, port, protocol⟩ := ctx
  subst hfamily hprotocol hport
  rw [BpfSockAddr.ofConnect, htonl_ntohl]

/-- The proxy decodes what the client passed to `connect()`. -/
theorem target_of_answered {addr : BitVec 32} {port : BitVec 16} {sa : SockaddrIn}
    (haddr : sa.sinAddr = htonl bo addr) (hport : sa.sinPort = htons bo port) :
    (SockAddrIn.ofMemory bo sa).target = ⟨addr, port⟩ := by
  unfold SockAddrIn.target SockAddrIn.ofMemory
  dsimp only
  rw [haddr, hport, bytes16_htons, bytes32_htonl, ofBytes16_bytes16, ofBytes32_bytes32]

theorem shiftRight_append (tgid thread : BitVec 32) :
    (tgid ++ thread) >>> 32 = tgid.setWidth 64 := by
  ext i hi
  simp
  grind

section net

variable {bo : ByteOrder} {tgid : BitVec 32} {pid : BitVec 64} {net net' : Deployment cap}
  {a : AutomaticCache.Act}

/-- Every attempt that was redirected had asked for `minioPort`. -/
def AskedMinio (bo : ByteOrder) (net : Deployment cap) : Prop :=
  ∀ (i : ℕ) (c : Conn), net.conns[i]? = some c → c.Redirected →
    ∃ addr, c.asked = .ofConnect bo addr minioPort

theorem AskedMinio.step (h : AskedMinio bo net) (hI : net.Sound bo pid)
    (hstep : net.step bo pid a = some net') : AskedMinio bo net' := by
  intro i c hc hr
  rcases Deployment.attempt_of_step hI hstep hc with
    ⟨d, hd, hbecomes⟩ | ⟨cookie, pidTgid, ctx, -, -, rfl⟩
  · have hdr : d.Redirected := by
      unfold Conn.Redirected at hr ⊢
      rwa [← hbecomes.asked, ← hbecomes.dest]
    rw [hbecomes.asked]
    exact h i d hd hdr
  · by_cases hcall : net.RedirectsCall bo pidTgid ctx
    · exact ⟨_, ofConnect_of_redirects hcall.2⟩
    · rw [Deployment.connectHook_of_not_redirects cookie hcall] at hr
      exact absurd rfl hr

theorem todo_step (htodo : net.todo = []) (hstep : net.step bo pid a = some net') :
    net'.todo = [] := by
  by_cases ha : a = .boot
  · subst ha
    obtain ⟨b, rest, ht, -⟩ := Deployment.step_boot hstep
    cases htodo.symm.trans ht
  · have hfields := congrArg Prod.fst (Deployment.bootFields_step ha hstep)
    exact hfields.trans htodo

/-- The proxy's own `connect()` is left alone. -/
theorem not_redirectsCall (hI : net.Sound bo (tgid.setWidth 64)) (htodo : net.todo = [])
    (thread : BitVec 32) (ctx : BpfSockAddr) : ¬net.RedirectsCall bo (tgid ++ thread) ctx := by
  rintro ⟨-, -, -, -, hpid⟩
  have hconfig := hI.booting.config_of_configured (by rw [htodo]; exact List.not_mem_nil)
  rw [hconfig, shiftRight_append] at hpid
  exact hpid rfl

/-- The call is that of a connection the proxy has queried, and has the address that its client
asked for, if the hooks have redirected it. -/
def Handled.Serves (bo : ByteOrder) (net : Deployment cap) (call : Handled η ζ) : Prop :=
  ∃ c, net.conns[call.conn]? = some c ∧ c.fd = .queried ∧
    (c.Redirected → c.asked = .ofConnect bo call.targetAddr.ip call.targetAddr.port)

theorem Handled.Serves.step {call : Handled η ζ} (h : call.Serves bo net) (hI : net.Sound bo pid)
    (hstep : net.step bo pid a = some net') : call.Serves bo net' := by
  obtain ⟨c, hc, hfd, hasked⟩ := h
  obtain ⟨c', hc', hbecomes⟩ := Deployment.becomes_step hI hstep hc
  refine ⟨c', hc', hbecomes.queried.2 (Or.inl hfd), fun hr => ?_⟩
  unfold Conn.Redirected at hr hasked
  rw [hbecomes.asked, hbecomes.dest] at hr
  rw [hbecomes.asked]
  exact hasked hr

/-- Attempt `i` went to the address `targetAddr`, where it had asked to go. -/
def Reaches (bo : ByteOrder) (net : Deployment cap) (i : ℕ) (targetAddr : Addr) : Prop :=
  ∃ own, net.conns[i]? = some own ∧ own.asked = .ofConnect bo targetAddr.ip targetAddr.port ∧
    own.dest = own.asked

theorem Reaches.step {i : ℕ} {targetAddr : Addr} (h : Reaches bo net i targetAddr)
    (hI : net.Sound bo pid) (hstep : net.step bo pid a = some net') :
    Reaches bo net' i targetAddr := by
  obtain ⟨own, hown, hasked, hdest⟩ := h
  obtain ⟨own', hown', hbecomes⟩ := Deployment.becomes_step hI hstep hown
  exact ⟨own', hown', hbecomes.asked.trans hasked, by rw [hbecomes.dest, hbecomes.asked, hdest]⟩

theorem reaches_connect {thread : BitVec 32} {cookie : Cookie} {targetAddr : Addr}
    (hI : net.Sound bo (tgid.setWidth 64)) (htodo : net.todo = [])
    (hstep : net.step bo (tgid.setWidth 64)
      (.connect cookie (tgid ++ thread) (.ofConnect bo targetAddr.ip targetAddr.port)) =
      some net') :
    Reaches bo net' net.conns.length targetAddr := by
  obtain ⟨-, rfl⟩ := Deployment.step_connect hstep
  rw [Deployment.connectHook_of_not_redirects cookie (not_redirectsCall hI htodo thread _)]
  exact ⟨_, List.getElem?_concat_length, rfl, rfl⟩

/-- The query of a redirected connection is answered with what its client asked for. -/
theorem asked_of_query {errno : ℤ → GoError} {c : Conn} {i : ℕ} {retval : ℤ}
    {targetAddr : Addr} (hI : net.Recorded bo pid) (hasked : AskedMinio bo net)
    (hc : net.conns[i]? = some c) (hfd : c.fd = .accepted)
    (ht : (getOriginalTargetFromConn (queryOf bo errno net c retval)).1 = some targetAddr)
    (hr : c.Redirected) : c.asked = .ofConnect bo targetAddr.ip targetAddr.port := by
  obtain ⟨addr, haddr⟩ := hasked i c hc hr
  obtain ⟨-, hip, hport⟩ := hI.answered c (List.mem_of_getElem? hc) hr hfd retval
  rw [haddr] at hip hport
  have htarget := (target_of_answered hip hport).symm.trans (Option.some.inj ht)
  rw [haddr, ← htarget]

end net

/-! ## Every run -/

namespace Host

variable {bo : ByteOrder} {tgid : BitVec 32} {errno : ℤ → GoError} {D : Dialer η ζ β}
  {s s' : Host cap η ζ} {b : HostAct η β}

/-- To the hooks, only the proxy queries, no map is full and the step is exclusive. -/
def Ok (bo : ByteOrder) (tgid : BitVec 32) (s : Host cap η ζ) (b : HostAct η β) : Prop :=
  ∀ a ∈ b.net? bo tgid, s.net.ProxyOnly a ∧ s.net.Exclusive bo a

structure Sound (bo : ByteOrder) (tgid : BitVec 32) (D : Dialer η ζ β) (s : Host cap η ζ) :
    Prop where
  recorded : s.net.Recorded bo (tgid.setWidth 64)
  asked : AskedMinio bo s.net
  started : s.calls ≠ [] → s.net.todo = []
  calls : ∀ c ∈ s.calls, (D.call c.surroundings c.targetAddr).Reachable c.point ∧
    c.Serves bo s.net
  once : (s.calls.map fun c => c.conn).Nodup
  handled : ∀ (i : ℕ) (c : Conn), s.net.conns[i]? = some c → c.fd = .queried →
    ∃ h ∈ s.calls, h.conn = i
  dials : ∀ d ∈ s.dials, ∃ c, s.calls[d.call]? = some c ∧
    Reaches bo s.net d.conn c.targetAddr

theorem sound_init : Sound bo tgid D (system bo tgid errno D cap).init where
  recorded := Deployment.recorded_initial
  asked := fun i c hc => by
    have hnone : ([] : List Conn)[i]? = some c := hc
    cases hnone
  started := fun h => absurd rfl h
  calls := nofun
  once := List.nodup_nil
  handled := fun i c hc => by
    have hnone : ([] : List Conn)[i]? = some c := hc
    cases hnone
  dials := nofun

/-- A step of the net that is not a query, with the calls as they were. -/
theorem Sound.net {a : AutomaticCache.Act} {net : Deployment cap} (h : Sound bo tgid D s)
    (hok : s.net.ProxyOnly a ∧ s.net.Exclusive bo a) (ha : ∀ i retval, a ≠ .query i retval)
    (hnet : Deployment.step bo (tgid.setWidth 64) s.net a = some net) :
    Sound bo tgid D { s with net := net } := by
  have hsound := h.recorded.sound
  refine ⟨⟨Deployment.sound_step hsound hnet,
    Deployment.found_step h.recorded hok.1 hok.2 hnet⟩,
    h.asked.step hsound hnet, fun hne => todo_step (h.started hne) hnet, fun c hc => ?_, h.once,
    fun i c hc hfd => ?_, fun d hd => ?_⟩
  · exact ⟨(h.calls c hc).1, (h.calls c hc).2.step hsound hnet⟩
  · rcases Deployment.attempt_of_step hsound hnet hc with
      ⟨e, he, hbecomes⟩ | ⟨_, _, _, -, -, rfl⟩
    · obtain hq | ⟨retval, hq⟩ := hbecomes.queried.1 hfd
      · exact h.handled i e he hq
      · exact absurd hq (ha i retval)
    · cases hfd
  · obtain ⟨c, hc, hreaches⟩ := h.dials d hd
    exact ⟨c, hc, hreaches.step hsound hnet⟩

theorem map_set_of_eq {α γ : Type} {f : α → γ} {l : List α} {k : ℕ} {x y : α}
    (h : l[k]? = some x) (hf : f y = f x) : (l.set k y).map f = l.map f := by
  rw [List.map_set]
  refine List.ext_getElem? fun j => ?_
  by_cases hkj : k = j
  · subst hkj
    rw [List.getElem?_set_self (by rw [List.length_map]; exact (List.getElem?_eq_some_iff.1 h).1),
      List.getElem?_map, h, Option.map_some, hf]
  · rw [List.getElem?_set_ne hkj]

/-- A query, which begins the call of its connection. -/
theorem Sound.query {i : ℕ} {retval : ℤ} {e : η} {c : Conn} {net : Deployment cap}
    {targetAddr : Addr} (h : Sound bo tgid D s)
    (hok : s.net.ProxyOnly (.query i retval) ∧ s.net.Exclusive bo (.query i retval))
    (hc : s.net.conns[i]? = some c)
    (hnet : Deployment.step bo (tgid.setWidth 64) s.net (.query i retval) = some net)
    (ht : (getOriginalTargetFromConn (queryOf bo errno s.net c retval)).1 = some targetAddr) :
    Sound bo tgid D
      { s with net := net, calls := s.calls ++
        [⟨i, e, targetAddr, (D.call e targetAddr).init⟩] } := by
  have hsound := h.recorded.sound
  have hfd : c.fd = .accepted := by
    obtain ⟨c', hc', hfd, -⟩ := Deployment.step_query hnet
    obtain rfl : c = c' := Option.some.inj (hc.symm.trans hc')
    exact hfd
  refine ⟨⟨Deployment.sound_step hsound hnet,
    Deployment.found_step h.recorded hok.1 hok.2 hnet⟩,
    h.asked.step hsound hnet, fun _ => todo_step
      (hsound.accepted c (List.mem_of_getElem? hc) hfd).1 hnet,
    fun d hd => ?_, ?_, fun j d hd hq => ?_, fun d hd => ?_⟩
  · rcases List.mem_append.1 hd with hd | hd
    · exact ⟨(h.calls d hd).1, (h.calls d hd).2.step hsound hnet⟩
    · obtain rfl := List.mem_singleton.1 hd
      refine ⟨.initial, ?_⟩
      obtain ⟨c', hc', hbecomes⟩ := Deployment.becomes_step hsound hnet hc
      refine ⟨c', hc', hbecomes.queried.2 (Or.inr ⟨retval, rfl⟩), fun hr => ?_⟩
      unfold Conn.Redirected at hr
      rw [hbecomes.asked, hbecomes.dest] at hr
      rw [hbecomes.asked]
      exact asked_of_query h.recorded h.asked hc hfd ht hr
  · rw [List.map_append, List.nodup_append]
    refine ⟨h.once, List.nodup_singleton _, fun j hj j' hj' hjj => ?_⟩
    obtain rfl := List.mem_singleton.1 hj'
    obtain ⟨d, hd, rfl⟩ := List.mem_map.1 hj
    obtain ⟨-, c', hc', hq, -⟩ := h.calls d hd
    rw [hjj] at hc'
    obtain rfl : c = c' := Option.some.inj (hc.symm.trans hc')
    cases hfd.symm.trans hq
  · rcases Deployment.attempt_of_step hsound hnet hd with
      ⟨e', he, hbecomes⟩ | ⟨_, _, _, ha, -, -⟩
    · rcases hbecomes.queried.1 hq with hq | ⟨retval', heq⟩
      · obtain ⟨d', hd', hj⟩ := h.handled j e' he hq
        exact ⟨d', List.mem_append_left _ hd', hj⟩
      · cases heq
        exact ⟨_, List.mem_append_right _ (List.mem_singleton.2 rfl), rfl⟩
    · cases ha
  · obtain ⟨c', hc', hreaches⟩ := h.dials d hd
    exact ⟨c', (List.getElem?_append_left (List.getElem?_eq_some_iff.1 hc').1).trans hc',
      hreaches.step hsound hnet⟩

theorem Sound.step (h : Sound bo tgid D s) (hok : s.Ok bo tgid b)
    (hstep : Host.step bo tgid errno D s b = some s') : Sound bo tgid D s' := by
  have hsound := h.recorded.sound
  cases step_of_step hstep with
  | net a net ha hnet =>
    refine h.net (hok a rfl) ?_ hnet
    rintro i retval rfl
    cases ha
  | query i retval e c net hc hnet targetAddr ht => exact h.query (hok _ rfl) hc hnet ht
  | call k b c z hc hz =>
    obtain ⟨hreachable, hserves⟩ := h.calls c (List.mem_of_getElem? hc)
    have hlt := (List.getElem?_eq_some_iff.1 hc).1
    have hconn := map_set_of_eq (f := fun c => c.conn) (y := { c with point := z }) hc rfl
    refine ⟨h.recorded, h.asked,
      fun _ => h.started (List.ne_nil_of_mem (List.mem_of_getElem? hc)),
      fun c' hc' => ?_, hconn ▸ h.once, fun i d hd hfd => ?_, fun d hd => ?_⟩
    · rcases List.mem_or_eq_of_mem_set hc' with hc' | rfl
      · exact h.calls c' hc'
      · exact ⟨hreachable.step hz, hserves⟩
    · have hmem : i ∈ (s.calls.set k { c with point := z }).map fun c => c.conn := by
        obtain ⟨c', hc', hi⟩ := h.handled i d hd hfd
        rw [hconn]
        exact List.mem_map.2 ⟨c', hc', hi⟩
      exact List.mem_map.1 hmem
    · obtain ⟨c', hc', hreaches⟩ := h.dials d hd
      by_cases hk : k = d.call
      · subst hk
        obtain rfl : c = c' := Option.some.inj (hc.symm.trans hc')
        exact ⟨{ c with point := z }, List.getElem?_set_self hlt, hreaches⟩
      · exact ⟨c', (List.getElem?_set_ne hk).trans hc', hreaches⟩
  | dial k a thread cookie c net hc ha hnet =>
    have hmem := List.mem_of_getElem? hc
    obtain ⟨hreachable, -⟩ := h.calls c hmem
    obtain rfl : a = c.targetAddr := D.dialed_eq _ _ _ hreachable a ha
    have hn := h.net (hok _ rfl) nofun hnet
    refine { hn with dials := fun d hd => ?_ }
    rcases List.mem_append.1 hd with hd | hd
    · exact hn.dials d hd
    · obtain rfl := List.mem_singleton.1 hd
      exact ⟨c, hc, reaches_connect hsound (h.started (List.ne_nil_of_mem hmem)) hnet⟩

/-- Each connection that the proxy has queried is handled, and once, by a handler that is given the
address its client passed to `connect()`, if the hooks redirected that; nothing else is handled. A
`connect()` of a handler goes, unredirected, where the `connect()` of its client should have
gone. -/
structure Connects (bo : ByteOrder) (s : Host cap η ζ) : Prop where
  once : (s.calls.map fun c => c.conn).Nodup
  handled : ∀ (i : ℕ) (c : Conn), s.net.conns[i]? = some c → c.fd = .queried →
    ∃ h ∈ s.calls, h.conn = i ∧
      (c.Redirected → c.asked = .ofConnect bo h.targetAddr.ip h.targetAddr.port)
  serves : ∀ h ∈ s.calls, h.Serves bo s.net
  dials : ∀ d ∈ s.dials, ∃ (h : Handled η ζ) (client own : Conn),
    s.calls[d.call]? = some h ∧
    s.net.conns[h.conn]? = some client ∧ s.net.conns[d.conn]? = some own ∧
    own.dest = own.asked ∧
      (client.Redirected → own.dest = client.asked)

theorem Sound.connects (h : Sound bo tgid D s) : s.Connects bo where
  once := h.once
  handled := fun i c hc hfd => by
    obtain ⟨call, hcall, rfl⟩ := h.handled i c hc hfd
    obtain ⟨-, c', hc', -, hasked⟩ := h.calls call hcall
    obtain rfl := Option.some.inj (hc.symm.trans hc')
    exact ⟨call, hcall, rfl, hasked⟩
  serves := fun call hcall => (h.calls call hcall).2
  dials := fun d hd => by
    obtain ⟨c, hc, own, hown, hasked, hdest⟩ := h.dials d hd
    obtain ⟨-, client, hclient, -, hr⟩ := h.calls c (List.mem_of_getElem? hc)
    exact ⟨c, client, own, hc, hclient, hown, hdest, fun hredirected => by
      rw [hdest, hasked, hr hredirected]⟩

/-- **From a client's connect to the proxy's.** In every run in which, to the hooks, only the proxy
queries, no map is full and every step is exclusive, whatever handler serves the connections: each
one the proxy has queried is handled once. Where its client was redirected, the handler is given
what the client asked for, and the proxy connects to that and is not redirected to itself. -/
theorem redirected_connects (bo : ByteOrder) (tgid : BitVec 32) (errno : ℤ → GoError)
    (D : Dialer η ζ β) (cap : ℕ) (as : List (HostAct η β)) (s : Host cap η ζ)
    (hrun : (system bo tgid errno D cap).run (system bo tgid errno D cap).init as = some s)
    (hok : (system bo tgid errno D cap).Steps (Ok bo tgid) (system bo tgid errno D cap).init as) :
    s.Connects bo := by
  have hkeep (s : Host cap η ζ) (b : HostAct η β) (s' : Host cap η ζ) (hI : Sound bo tgid D s)
      (hok : s.Ok bo tgid b) (hs : (system bo tgid errno D cap).step s b = some s') :
      Sound bo tgid D s' :=
    hI.step hok (show Host.step bo tgid errno D s b = some s' from hs)
  exact (System.run_invariant hkeep sound_init hok hrun).connects

/-- A query that finds `cookie` takes no other connection's entries. -/
def Spares (bo : ByteOrder) (net : Deployment cap) (i : ℕ) (cookie : Cookie) : Prop :=
  cookie ∈ net.socks → ∀ j < net.conns.length, j ≠ i → ∀ d ∈ net.conns[j]?,
    d.Awaiting bo → d.cookie ≠ cookie

instance (net : Deployment cap) (i : ℕ) (cookie : Cookie) :
    Decidable (Spares bo net i cookie) := by
  unfold Spares; infer_instance

/-- By the one cookie that the query finds, and not by all there are. -/
def decidableQuery (net : Deployment cap) (i : ℕ) (retval : ℤ) :
    Decidable (net.Exclusive bo (.query i retval)) :=
  have (c : Conn) : Decidable (∀ cookie ∈ net.ports.lookup c.srcPort, Spares bo net i cookie) :=
    Option.decidableForallMem _
  decidable_of_iff (∀ c ∈ net.conns[i]?, ∀ cookie ∈ net.ports.lookup c.srcPort,
    Spares bo net i cookie) Iff.rfl

instance (s : Host cap η ζ) : ∀ b : HostAct η β, Decidable (s.Ok bo tgid b)
  | .net a => decidable_of_iff (s.net.ProxyOnly a ∧ s.net.Exclusive bo a)
      ⟨fun h _ ha => Option.some.inj ha ▸ h, fun h => h a rfl⟩
  | .query i retval _ =>
    have : Decidable (s.net.Exclusive bo (.query i retval)) := decidableQuery s.net i retval
    decidable_of_iff (s.net.ProxyOnly (.query i retval) ∧ s.net.Exclusive bo (.query i retval))
      ⟨fun h _ ha => Option.some.inj ha ▸ h, fun h => h _ rfl⟩
  | .call _ _ => isTrue nofun
  | .dial _ a thread cookie => decidable_of_iff
      (s.net.ProxyOnly (.connect cookie (tgid ++ thread) (.ofConnect bo a.ip a.port)) ∧
        s.net.Exclusive bo (.connect cookie (tgid ++ thread) (.ofConnect bo a.ip a.port)))
      ⟨fun h _ ha => Option.some.inj ha ▸ h, fun h => h _ rfl⟩

/-- The start-up; a client that connects to `10.0.0.1:9000` from port 40000; and the proxy, which
accepts it, asks where it wanted to go, and dials that. -/
def oneRedirected : List (HostAct Unit ForwardAct) :=
  [.net .boot, .net .boot, .net .boot, .net .boot, .net .boot,
    .net (.connect 7 (1000 <<< 32) (.ofConnect .little 0x0a000001 9000)),
    .net (.establish 0 0x7f000001 40000), .net (.accept 0), .query 0 (-92) (),
    .call 0 (.dial false),
    .dial 0 ⟨0x0a000001, 9000⟩ 4243 9]

theorem redirected_connects_one :
    ∃ s, (system .little 4242 (fun _ => .new "errno") .forwardConnection maxConnections).run
        (system .little 4242 (fun _ => .new "errno") .forwardConnection maxConnections).init
        oneRedirected = some s ∧
      s.dials = [⟨0, 1⟩] ∧ s.Connects .little :=
  ⟨_, rfl, rfl, redirected_connects .little 4242 (fun _ => .new "errno")
    .forwardConnection maxConnections oneRedirected _ rfl (by decide)⟩

end Host

end Main

end AutomaticCache
