import AutomaticCache.Bpf.StartUp

/-!
# Redirecting without a record

`cg_connect4` does not look at the result of `bpf_map_update_elem`. A call that `map_socks` cannot
admit, because it is full and the cookie is new, is redirected all the same, and the proxy can never
learn where it wanted to go. `redirect_recoverable_iff` is the exact condition; `reachable_full`
shows that clients alone can fill the map, whatever its capacity.
-/

namespace AutomaticCache

open Endian

namespace Deployment

variable {cap : ℕ} {bo : ByteOrder} {pid : BitVec 64} {s s' : Deployment cap}

/-- A `connect()` is sent elsewhere only with its destination on record, and is left alone when the
record cannot be stored. -/
def Recoverable (bo : ByteOrder) (s : Deployment cap) (pidTgid : BitVec 64) (cookie : Cookie)
    (ctx : BpfSockAddr) : Prop :=
  let r := s.connectHook bo pidTgid cookie ctx
  (r.2 ≠ ctx → ∃ sock, r.1.lookup cookie = some sock ∧
    sock.dstAddr = ntohl bo ctx.userIp4 ∧ sock.dstPort = ntohs bo ctx.sinPort) ∧
  (¬ s.socks.Admits cookie → r.2 = ctx)

/-- If the hook redirects the call, the map admits its cookie and the build is little-endian. -/
def Storable (bo : ByteOrder) (s : Deployment cap) (pidTgid : BitVec 64) (cookie : Cookie)
    (ctx : BpfSockAddr) : Prop :=
  s.RedirectsCall bo pidTgid ctx → s.socks.Admits cookie ∧ bo = .little

def RecoverableStep (bo : ByteOrder) (s : Deployment cap) : Act → Prop
  | .connect cookie pidTgid ctx => s.Recoverable bo pidTgid cookie ctx
  | _ => True

def StorableStep (bo : ByteOrder) (s : Deployment cap) : Act → Prop
  | .connect cookie pidTgid ctx => s.Storable bo pidTgid cookie ctx
  | _ => True

/-- The record of a redirected call names its port only on a little-endian build. -/
theorem recordOf_dstPort_iff {pidTgid : BitVec 64} {ctx : BpfSockAddr}
    (h : s.RedirectsCall bo pidTgid ctx) :
    (recordOf bo ctx).dstPort = ntohs bo ctx.sinPort ↔ bo = .little := by
  cases bo with
  | little => exact ⟨fun _ => rfl, fun _ => recordOf_dstPort_little ctx⟩
  | big =>
    have hport : ctx.sinPort = htons .big minioPort := h.2.2.2.1
    rw [recordOf_dstPort_big, hport]
    exact ⟨fun h => absurd h (by decide), fun h => absurd h (by decide)⟩

theorem Booting.recoverable_iff (hb : Booting pid s) (pidTgid : BitVec 64) (cookie : Cookie)
    (ctx : BpfSockAddr) :
    s.Recoverable bo pidTgid cookie ctx ↔ s.Storable bo pidTgid cookie ctx := by
  unfold Recoverable Storable
  by_cases hr : s.RedirectsCall bo pidTgid ctx
  · have hne := hb.rewritten_ne hr
    rw [connectHook_of_redirects cookie hr]
    constructor
    · rintro ⟨hrec, hfail⟩ -
      have hadm : s.socks.Admits cookie := by
        by_contra h
        exact hne (hfail h)
      obtain ⟨sock, hl, -, hport⟩ := hrec hne
      rw [BoundedMap.lookup_put _ hadm, Option.some.injEq] at hl
      subst hl
      exact ⟨hadm, (recordOf_dstPort_iff hr).1 hport⟩
    · intro h
      obtain ⟨hadm, hbo⟩ := h hr
      exact ⟨fun _ => ⟨recordOf bo ctx, BoundedMap.lookup_put _ hadm, rfl,
        (recordOf_dstPort_iff hr).2 hbo⟩, fun hn => absurd hadm hn⟩
  · rw [connectHook_of_not_redirects cookie hr]
    exact ⟨fun _ h => absurd h hr, fun _ => ⟨fun h => absurd rfl h, fun _ => rfl⟩⟩

/-- **Redirect only what can be recovered.** In every state a run reaches, a `connect()` is
recoverable exactly when the map admits its record, on a little-endian build; so the calls of a
run are all recoverable exactly when all their records can be stored. -/
theorem redirect_recoverable_iff (bo : ByteOrder) (pid : BitVec 64) (cap : ℕ) (as : List Act) :
    ((system bo pid cap).Steps (RecoverableStep bo) initial as ↔
      (system bo pid cap).Steps (StorableStep bo) initial as) ∧
    ∀ s, (system bo pid cap).run initial as = some s → ∀ pidTgid cookie ctx,
      (s.Recoverable bo pidTgid cookie ctx ↔ s.Storable bo pidTgid cookie ctx) := by
  constructor
  · refine Runs.System.steps_congr (fun s a hs => ?_) Runs.System.Reachable.initial
    cases a with
    | connect cookie pidTgid ctx =>
      exact (booting_of_reachable hs).recoverable_iff pidTgid cookie ctx
    | _ => exact Iff.rfl
  · intro s hs pidTgid cookie ctx
    exact (booting_of_reachable ⟨as, hs⟩).recoverable_iff pidTgid cookie ctx

/-! ## A full map -/

/-- The `connect()` of a client that is not the proxy, to `10.0.0.1:9000`. -/
def clientCall (bo : ByteOrder) : BpfSockAddr := .ofConnect bo 0x0a000001 minioPort

/-- A configured host whose `map_socks` holds `n` records, of sockets with cookies below `n`. -/
structure Filled (bo : ByteOrder) (pid : BitVec 64) (n : ℕ) (s : Deployment cap) : Prop where
  reachable : (system bo pid cap).Reachable s
  todo : s.todo = []
  card : s.socks.entries.keys.card = n
  socks : ∀ k ∈ s.socks, k.toNat < n
  conns : ∀ c ∈ s.conns, c.cookie.toNat < n

theorem filled_zero (bo : ByteOrder) (pid : BitVec 64) (cap : ℕ) :
    ∃ s : Deployment cap, Filled bo pid 0 s := by
  refine ⟨_, ⟨List.replicate 5 Act.boot, rfl⟩, rfl, ?_, ?_, ?_⟩
  · show (∅ : Finmap fun _ : Cookie => Socket).keys.card = 0
    rw [Finmap.keys_empty, Finset.card_empty]
  · intro k hk
    exact absurd hk (BoundedMap.notMem_empty k)
  · intro c hc
    exact absurd hc List.not_mem_nil

/-- A process of another id than the proxy's has its call redirected once the start-up is over. -/
theorem redirectsCall_clientCall (hb : Booting pid s) (ht : s.todo = []) {pidTgid : BitVec 64}
    (hp : pidTgid >>> 32 ≠ pid) : s.RedirectsCall bo pidTgid (clientCall bo) := by
  refine ⟨?_, rfl, rfl, rfl, ?_⟩
  · rw [hb.connect4, ht]; exact List.not_mem_nil
  · rw [hb.config_of_configured (by rw [ht]; exact List.not_mem_nil)]; exact hp

/-- One more client takes one more place. -/
theorem Filled.succ {n : ℕ} (hf : Filled bo pid n s) (hn : n < cap) (hcap : cap ≤ 2 ^ 64)
    {pidTgid : BitVec 64} (hp : pidTgid >>> 32 ≠ pid) :
    ∃ s' : Deployment cap, Filled bo pid (n + 1) s' := by
  have hb := booting_of_reachable hf.reachable
  have hto : (BitVec.ofNat 64 n).toNat = n := by
    rw [BitVec.toNat_ofNat, Nat.mod_eq_of_lt (by omega)]
  have hbusy : ¬ s.Busy (BitVec.ofNat 64 n) := by
    rintro ⟨c, hc, hk, -⟩
    have := hf.conns c hc
    rw [hk, hto] at this
    omega
  have hnew : BitVec.ofNat 64 n ∉ s.socks := by
    intro hk
    have := hf.socks _ hk
    rw [hto] at this
    omega
  have hadm : s.socks.Admits (BitVec.ofNat 64 n) :=
    Or.inr (by unfold BoundedMap.Full; rw [hf.card]; omega)
  have hstep : (system bo pid cap).step s (.connect (BitVec.ofNat 64 n) pidTgid (clientCall bo)) =
      some { s with
        socks := (s.connectHook bo pidTgid (BitVec.ofNat 64 n) (clientCall bo)).1
        conns := s.conns ++ [.attempt (BitVec.ofNat 64 n) (clientCall bo)
          (s.connectHook bo pidTgid (BitVec.ofNat 64 n) (clientCall bo)).2] } := by
    simp only [system, step, if_neg hbusy]
  refine ⟨_, hf.reachable.step hstep, hf.todo, ?_, ?_, ?_⟩
  · rw [connectHook_of_redirects _ (redirectsCall_clientCall hb hf.todo hp)]
    obtain ⟨m', hm'⟩ := Option.ne_none_iff_exists'.1 fun h =>
      BoundedMap.update_eq_none (v := recordOf bo (clientCall bo)).1 h hadm
    show (s.socks.put _ _).entries.keys.card = n + 1
    unfold BoundedMap.put
    rw [hm', Option.getD_some, BoundedMap.card_update hm' hnew, hf.card]
  · intro k hk
    rw [connectHook_of_redirects _ (redirectsCall_clientCall hb hf.todo hp)] at hk
    rcases BoundedMap.mem_of_mem_put hk with rfl | hk
    · rw [hto]; omega
    · exact (hf.socks k hk).trans (Nat.lt_succ_self n)
  · intro c hc
    rcases List.mem_append.1 hc with hc | hc
    · exact (hf.conns c hc).trans (Nat.lt_succ_self n)
    · rw [List.mem_singleton.1 hc]
      show (BitVec.ofNat 64 n).toNat < n + 1
      rw [hto]; omega

/-- Clients can fill the map, whatever its capacity. -/
theorem reachable_full (bo : ByteOrder) (pid : BitVec 64) (hcap : cap ≤ 2 ^ 64)
    {pidTgid : BitVec 64} (hp : pidTgid >>> 32 ≠ pid) :
    ∃ s : Deployment cap, Filled bo pid cap s := by
  have hfill : ∀ n, n ≤ cap → ∃ s : Deployment cap, Filled bo pid n s := by
    intro n
    induction n with
    | zero => intro _; exact filled_zero bo pid cap
    | succ n ih =>
      intro hn
      obtain ⟨s, hs⟩ := ih (by omega)
      exact hs.succ hn hcap hp
  exact hfill cap le_rfl

/-- After `maxConnections` clients, the next one is redirected without a record. -/
theorem redirect_unrecoverable :
    ¬ ∀ as s, (system .little 4242 maxConnections).run initial as = some s →
      ∀ pidTgid cookie ctx, s.Recoverable .little pidTgid cookie ctx := by
  intro h
  have hp : (1000 <<< 32 : BitVec 64) >>> 32 ≠ 4242 := by decide
  obtain ⟨s, hf⟩ : ∃ s : Deployment maxConnections, Filled .little 4242 maxConnections s :=
    reachable_full .little 4242 (by decide) hp
  obtain ⟨as, hs⟩ := hf.reachable
  have hb := booting_of_reachable hf.reachable
  have hrec := h as s hs (1000 <<< 32) (BitVec.ofNat 64 maxConnections) (clientCall .little)
  have hstore := (hb.recoverable_iff _ _ _).1 hrec (redirectsCall_clientCall hb hf.todo hp)
  rcases hstore.1 with hmem | hfull
  · have := hf.socks _ hmem
    revert this
    decide
  · exact hfull (le_of_eq hf.card.symm)

end Deployment

end AutomaticCache
