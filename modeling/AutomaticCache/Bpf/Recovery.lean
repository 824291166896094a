import AutomaticCache.Bpf.Sockets

/-!
# Recovering the original destination

The proxy's query of an accepted connection goes from the client's source port to a cookie and
from there to the record. `Recorded` is the invariant that keeps the way open: every redirected
connection that awaits its query is found in both maps. It survives a step as long as no other
connection writes or takes the same entries (`Exclusive`):

* `establish` writes the port: no other socket may await a query on the same source port,
* `connect` writes the record: an earlier connection of the socket may not await one to another
  destination,
* `query` takes both entries: they may not be those of another connection.

Two clients with one source port and different source addresses break the first condition.
-/

namespace AutomaticCache

open Endian

/-- A redirected connection to the proxy that the proxy has not queried yet, from its `connect()`
on. -/
def Conn.Awaiting (bo : ByteOrder) (c : Conn) : Prop :=
  c.Redirected ∧ c.ToProxy bo ∧ (c.fd = .waiting ∨ c.fd = .accepted)

instance (bo : ByteOrder) (c : Conn) : Decidable (c.Awaiting bo) := by
  unfold Conn.Awaiting; infer_instance

/-- The step is a `getsockopt()` that is not the proxy's query of a connection. -/
def Act.byOther : Act → Bool
  | .getsockopt _ => true
  | _ => false

namespace Deployment

variable {cap : ℕ} {bo : ByteOrder} {pid : BitVec 64} {s s' : Deployment cap}

/-- The proxy's query of every redirected connection that it has accepted and not yet queried is
answered with the address and port that the client passed to `connect()`. -/
def Answered (bo : ByteOrder) (s : Deployment cap) : Prop :=
  ∀ c ∈ s.conns, c.Redirected → c.fd = .accepted → ∀ retval,
    let ctx := (s.sockOptHook bo (c.queryCtx bo retval)).2.2
    ctx.retval = 0 ∧ ctx.optval.sinAddr = c.asked.userIp4 ∧ ctx.optval.sinPort = c.asked.sinPort

/-- Only the proxy queries, and no map is full. -/
def ProxyOnly (s : Deployment cap) (a : Act) : Prop :=
  ¬ s.socks.Full ∧ ¬ s.ports.Full ∧ a.byOther = false

instance (s : Deployment cap) (a : Act) : Decidable (s.ProxyOnly a) := by
  unfold ProxyOnly; infer_instance

/-- The step neither writes nor takes the entries of another connection that awaits its query. -/
def Exclusive (bo : ByteOrder) (s : Deployment cap) : Act → Prop
  | .connect cookie pidTgid ctx => s.RedirectsCall bo pidTgid ctx →
    ∀ d ∈ s.conns, d.Awaiting bo → d.cookie = cookie →
      d.asked.userIp4 = ctx.userIp4 ∧ d.asked.sinPort = ctx.sinPort
  | .establish i _ srcPort => ∀ c ∈ s.conns[i]?, c.cookie ∈ s.socks →
    ∀ d ∈ s.conns, d.Awaiting bo → d.tcp ≠ .pending → d.srcPort = srcPort →
      d.cookie = c.cookie
  | .query i _ => ∀ c ∈ s.conns[i]?, ∀ cookie ∈ s.ports.lookup c.srcPort,
      cookie ∈ s.socks →
    ∀ j < s.conns.length, j ≠ i → ∀ d ∈ s.conns[j]?, d.Awaiting bo → d.cookie ≠ cookie
  | _ => True

instance (bo : ByteOrder) (s : Deployment cap) : ∀ a, Decidable (s.Exclusive bo a)
  | .connect _ _ _ | .establish _ _ _ | .query _ _ => by unfold Exclusive; infer_instance
  | .boot | .sockOps _ _ | .close _ | .accept _ | .drop _ | .getsockopt _ => isTrue trivial

/-! ## The invariant -/

/-- The maps lead from the connection to what its client asked for. -/
structure Found (bo : ByteOrder) (s : Deployment cap) (c : Conn) : Prop where
  little : bo = .little
  record : s.socks.lookup c.cookie = some (recordOf bo c.asked)
  port : c.tcp ≠ .pending → s.ports.lookup c.srcPort = some c.cookie

/-- Every redirected connection that awaits its query is found. -/
structure Recorded (bo : ByteOrder) (pid : BitVec 64) (s : Deployment cap) : Prop where
  sound : Sound bo pid s
  found : ∀ c ∈ s.conns, c.Awaiting bo → s.Found bo c

theorem recorded_initial : Recorded bo pid (initial : Deployment cap) where
  sound := sound_initial
  found := fun _ h => absurd h List.not_mem_nil

/-- What the maps say of a connection depends on its own two entries only. -/
theorem Found.congr {c : Conn} (h : s.Found bo c)
    (hsock : s'.socks.lookup c.cookie = s.socks.lookup c.cookie)
    (hport : c.tcp ≠ .pending → s'.ports.lookup c.srcPort = s.ports.lookup c.srcPort) :
    s'.Found bo c :=
  ⟨h.little, hsock.trans h.record, fun ht => (hport ht).trans (h.port ht)⟩

/-- Only on a little-endian build does a redirected call get to the proxy. -/
theorem little_of_toProxy {conf : Config} {ctx : BpfSockAddr}
    (h : (rewritten bo conf ctx).sinPort = htons bo proxyPort) : bo = .little := by
  cases bo with
  | little => rfl
  | big =>
    rw [rewritten_sinPort_big] at h
    exact absurd h (by decide)

/-- Calls with one destination have one record. -/
theorem recordOf_congr {ctx ctx' : BpfSockAddr} (haddr : ctx.userIp4 = ctx'.userIp4)
    (hport : ctx.sinPort = ctx'.sinPort) : recordOf bo ctx = recordOf bo ctx' := by
  unfold recordOf BpfSockAddr.userPort
  rw [haddr, hport]

/-! ## One step -/

/-- After a change to one connection the others are found as before. -/
theorem found_setConn {i : ℕ} {c : Conn} (hf : ∀ d ∈ s.conns, d.Awaiting bo → s.Found bo d)
    (hc : c.Awaiting bo → s.Found bo c) :
    ∀ d ∈ (s.setConn i c).conns, d.Awaiting bo → (s.setConn i c).Found bo d := by
  intro d hd ha
  rcases mem_setConn hd with rfl | ⟨j, -, hj⟩
  · exact (hc ha).congr rfl fun _ => rfl
  · exact (hf d (List.mem_of_getElem? hj) ha).congr rfl fun _ => rfl

theorem Recorded.connect {cookie : Cookie} {pidTgid : BitVec 64} {ctx : BpfSockAddr}
    (hI : Recorded bo pid s) (hp : s.ProxyOnly (.connect cookie pidTgid ctx))
    (he : s.Exclusive bo (.connect cookie pidTgid ctx))
    (h : step bo pid s (.connect cookie pidTgid ctx) = some s') :
    ∀ d ∈ s'.conns, d.Awaiting bo → s'.Found bo d := by
  obtain ⟨-, rfl⟩ := step_connect h
  intro d hd ha
  by_cases hr : s.RedirectsCall bo pidTgid ctx
  · have hadm : s.socks.Admits cookie := Or.inr hp.1
    rw [connectHook_of_redirects cookie hr] at hd ⊢
    rcases List.mem_append.1 hd with hd | hd
    · have hf := hI.found d hd ha
      by_cases hk : d.cookie = cookie
      · -- an earlier connection of the socket: its record is rewritten to the same destination
        obtain ⟨haddr, hport⟩ := he hr d hd ha hk
        refine ⟨hf.little, ?_, hf.port⟩
        rw [hk, recordOf_congr haddr hport]
        exact BoundedMap.lookup_put _ hadm
      · exact hf.congr (BoundedMap.lookup_put_of_ne _ hk) fun _ => rfl
    · rw [List.mem_singleton.1 hd] at ha ⊢
      exact ⟨little_of_toProxy ha.2.1.2, BoundedMap.lookup_put _ hadm, fun ht => absurd rfl ht⟩
  · rw [connectHook_of_not_redirects cookie hr] at hd ⊢
    rcases List.mem_append.1 hd with hd | hd
    · exact (hI.found d hd ha).congr rfl fun _ => rfl
    · rw [List.mem_singleton.1 hd] at ha
      exact absurd rfl ha.1

theorem Recorded.establish {i : ℕ} {srcAddr : BitVec 32} {srcPort : BitVec 16}
    (hI : Recorded bo pid s) (hp : s.ProxyOnly (.establish i srcAddr srcPort))
    (he : s.Exclusive bo (.establish i srcAddr srcPort))
    (h : step bo pid s (.establish i srcAddr srcPort) = some s') :
    ∀ d ∈ s'.conns, d.Awaiting bo → s'.Found bo d := by
  obtain ⟨c, hc, hm, rfl⟩ := step_establish h
  have hcm := List.mem_of_getElem? hc
  rw [sockOpsHook_established]
  by_cases hk : s.sockOps = true ∧ c.cookie ∈ s.socks
  · rw [if_pos hk]
    have hput : (s.ports.put srcPort c.cookie).lookup srcPort = some c.cookie :=
      BoundedMap.lookup_put _ (Or.inr hp.2.1)
    refine found_setConn (fun d hd ha => ?_) fun ha => ?_
    · have hf := hI.found d hd ha
      refine ⟨hf.little, hf.record, fun ht => ?_⟩
      by_cases hport : d.srcPort = srcPort
      · rw [hport, he c hc hk.2 d hd ha ht hport]
        exact hput
      · exact (BoundedMap.lookup_put_of_ne _ hport).trans (hf.port ht)
    · have hf := hI.found c hcm ha
      exact ⟨hf.little, hf.record, fun _ => hput⟩
  · rw [if_neg hk]
    refine found_setConn hI.found fun ha => ?_
    -- an attempt to the proxy is established only once both client-side hooks are attached
    have hlisten := (hm.2.2.2 ha.2.1).1
    exact absurd ⟨hI.sound.booting.sockOps_of_listening hlisten,
      BoundedMap.mem_of_lookup (hI.found c hcm ha).record⟩ hk

/-- A query takes the entries of its own connection, or of none that is awaiting. -/
theorem Recorded.query {i : ℕ} {retval : ℤ} (hI : Recorded bo pid s)
    (he : s.Exclusive bo (.query i retval)) (h : step bo pid s (.query i retval) = some s') :
    ∀ d ∈ s'.conns, d.Awaiting bo → s'.Found bo d := by
  obtain ⟨c, hc, hfd, rfl⟩ := step_query h
  have hport : ntohs bo (c.queryCtx bo retval).skDstPort = c.srcPort := ntohs_htons bo c.srcPort
  intro d hd ha
  rcases mem_setConn hd with rfl | ⟨j, hji, hj⟩
  · rcases ha.2.2 with hw | hw <;> cases hw
  have hj : s.conns[j]? = some d := hj
  have hf := hI.found d (List.mem_of_getElem? hj) ha
  by_cases hans : s.AnswersCall bo (c.queryCtx bo retval)
  · obtain ⟨cookie, sock, hl, hs, heq⟩ := sockOptHook_of_answers hans
    rw [hport] at hl heq
    have hne : d.cookie ≠ cookie :=
      he c hc cookie hl (BoundedMap.mem_of_lookup hs) j (List.getElem?_eq_some_iff.1 hj).1 hji d
        hj ha
    refine hf.congr ?_ fun ht => ?_
    · show (s.sockOptHook bo _).2.1.lookup _ = _
      rw [heq]
      exact BoundedMap.lookup_delete_of_ne hne
    · show (s.sockOptHook bo _).1.lookup _ = _
      rw [heq]
      refine BoundedMap.lookup_delete_of_ne fun hp => hne ?_
      have hd := hf.port ht
      rw [hp, hl, Option.some.injEq] at hd
      exact hd.symm
  · rw [afterSockOpt_of_not_answers hans]
    exact hf.congr rfl fun _ => rfl

theorem found_step {a : Act} (hI : Recorded bo pid s) (hp : s.ProxyOnly a)
    (he : s.Exclusive bo a) (h : step bo pid s a = some s') :
    ∀ d ∈ s'.conns, d.Awaiting bo → s'.Found bo d := by
  cases a with
  | boot =>
    obtain ⟨b, rest, -, rfl⟩ := step_boot h
    intro c hc ha
    cases b <;> exact (hI.found c hc ha).congr rfl fun _ => rfl
  | connect cookie pidTgid ctx => exact hI.connect hp he h
  | establish i srcAddr srcPort => exact hI.establish hp he h
  | sockOps cookie ctx => rw [step_sockOps h]; exact hI.found
  | close i =>
    obtain ⟨c, hc, -, rfl⟩ := step_close h
    refine found_setConn hI.found fun ha => ?_
    by_cases hpend : c.tcp = .pending
    · rw [if_pos hpend] at ha
      rcases ha.2.2 with hw | hw <;> cases hw
    · rw [if_neg hpend] at ha ⊢
      have hf := hI.found c (List.mem_of_getElem? hc) ha
      exact ⟨hf.little, hf.record, fun _ => hf.port hpend⟩
  | accept i =>
    obtain ⟨c, hc, ⟨-, -, -, hfd⟩, rfl⟩ := step_accept h
    refine found_setConn hI.found fun ha => ?_
    have hf := hI.found c (List.mem_of_getElem? hc) ⟨ha.1, ha.2.1, Or.inl hfd⟩
    exact ⟨hf.little, hf.record, hf.port⟩
  | drop i =>
    obtain ⟨c, hc, -, rfl⟩ := step_drop h
    refine found_setConn hI.found fun ha => ?_
    rcases ha.2.2 with hw | hw <;> cases hw
  | query i retval => exact hI.query he h
  | getsockopt call => exact absurd hp.2.2 (by simp [Act.byOther])

/-! ## Every run -/

/-- Where the maps lead to what every client asked for, the proxy's queries are answered with it. -/
theorem Recorded.answered (hI : Recorded bo pid s) : s.Answered bo := by
  intro c hc hr hfd retval
  obtain ⟨htodo, hto, hpend⟩ := hI.sound.accepted c hc hfd
  obtain ⟨hlit, hrec, hport⟩ := hI.found c hc ⟨hr, hto, Or.inr hfd⟩
  have hopt : s.sockOpt = true := by
    rw [hI.sound.booting.sockOpt, htodo]; exact List.not_mem_nil
  have hskPort : ntohs bo (c.queryCtx bo retval).skDstPort = c.srcPort := ntohs_htons bo c.srcPort
  have hans : s.AnswersCall bo (c.queryCtx bo retval) :=
    ⟨hopt, ⟨rfl, rfl, rfl⟩,
      ⟨c.cookie, hskPort ▸ hport hpend, BoundedMap.mem_of_lookup hrec⟩, le_rfl⟩
  obtain ⟨cookie, sock, hl, hs, heq⟩ := sockOptHook_of_answers hans
  rw [hskPort, hport hpend, Option.some.injEq] at hl
  subst hl
  rw [hrec, Option.some.injEq] at hs
  subst hs
  rw [heq]
  subst hlit
  refine ⟨rfl, ?_, ?_⟩
  · show htonl .little (ntohl .little c.asked.userIp4) = c.asked.userIp4
    rw [htonl_ntohl]
  · show htons .little (recordOf .little c.asked).dstPort = c.asked.sinPort
    rw [recordOf_dstPort_little, htons_ntohs]

/-- **The original destination is recovered.** In every run in which only the proxy queries, no
map is full and every step is exclusive, the proxy's query of an accepted redirected connection is
answered with what its client asked for. -/
theorem originalDst_answered (bo : ByteOrder) (pid : BitVec 64) (cap : ℕ) (as : List Act)
    (s : Deployment cap) (hrun : (system bo pid cap).run initial as = some s)
    (hp : (system bo pid cap).Steps ProxyOnly initial as)
    (he : (system bo pid cap).Steps (Exclusive bo) initial as) : s.Answered bo := by
  have hkeep : ∀ s a s', Recorded bo pid s → s.ProxyOnly a ∧ s.Exclusive bo a →
      (system bo pid cap).step s a = some s' → Recorded bo pid s' :=
    fun s a s' hI hok hs => ⟨sound_step hI.sound hs, found_step hI hok.1 hok.2 hs⟩
  exact (Runs.System.run_invariant hkeep recorded_initial
    (Runs.System.steps_and hp he) hrun).answered

/-- The start-up, then sockets 7 and 8 connect to `10.0.0.1:9000` and `10.0.0.2:9000`, from port
40000 of `127.0.0.1` and port `port` of `127.0.0.2`, and the proxy accepts the first. -/
def twoClients (bo : ByteOrder) (port : BitVec 16) : List Act :=
  [.boot, .boot, .boot, .boot, .boot,
    .connect 7 (1000 <<< 32) (.ofConnect bo 0x0a000001 9000),
    .connect 8 (1001 <<< 32) (.ofConnect bo 0x0a000002 9000),
    .establish 0 0x7f000001 40000, .establish 1 0x7f000002 port, .accept 0]

/-- With different source ports the two clients do not meet. -/
theorem originalDst_answered_twoClients :
    ∃ s, (system .little 4242 maxConnections).run initial (twoClients .little 40001) = some s ∧
      s.conns.length = 2 ∧ s.Answered .little :=
  ⟨_, rfl, rfl, originalDst_answered .little 4242 maxConnections (twoClients .little 40001) _ rfl
    (by decide) (by decide)⟩

/-- With one source port the query of the first client's connection is answered with
`10.0.0.2:9000`, where the second wanted to go. -/
theorem originalDst_not_answered :
    ¬ ∀ as s, (system .little 4242 maxConnections).run initial as = some s →
      (system .little 4242 maxConnections).Steps ProxyOnly initial as → s.Answered .little := by
  intro h
  have hbad : ∃ s, (system .little 4242 maxConnections).run initial (twoClients .little 40000) =
      some s ∧ ∃ c ∈ s.conns, c.Redirected ∧ c.fd = .accepted ∧
        (s.sockOptHook .little (c.queryCtx .little 0)).2.2.optval.sinAddr ≠ c.asked.userIp4 :=
    ⟨_, rfl, by decide⟩
  obtain ⟨s, hs, c, hc, hr, hfd, hne⟩ := hbad
  exact hne (h _ s hs (by decide) c hc hr hfd 0).2.1

end Deployment

end AutomaticCache
