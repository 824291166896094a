import AutomaticCache.Bpf.StartUp

/-!
# Sockets and connections

What holds of the connections in every state, whatever the maps hold (`sound_of_reachable`): a
socket has at most one live attempt, and it is its latest one; an attempt is accepted only by a
proxy that has started, only at the proxy's address and only once it was established.
-/

namespace AutomaticCache

open Endian

namespace Deployment

variable {cap : ℕ} {bo : ByteOrder} {pid : BitVec 64} {s s' : Deployment cap}

structure Sound (bo : ByteOrder) (pid : BitVec 64) (s : Deployment cap) : Prop where
  booting : Booting pid s
  accepted : ∀ c ∈ s.conns, c.fd = .accepted → s.todo = [] ∧ c.ToProxy bo ∧
    c.tcp ≠ .pending
  pending : ∀ c ∈ s.conns, c.tcp = .pending → c.fd = .waiting
  latest : ∀ (i j : ℕ) (c d : Conn), i < j → s.conns[i]? = some c → s.conns[j]? = some d →
    c.cookie = d.cookie → c.tcp = .gone

theorem sound_initial : Sound bo pid (initial : Deployment cap) where
  booting := booting_initial
  accepted := fun _ h => absurd h List.not_mem_nil
  pending := fun _ h => absurd h List.not_mem_nil
  latest := fun _ _ _ _ _ h => by simp [initial] at h

/-- The invariant does not read the maps. -/
theorem Sound.congr (h : Sound bo pid s) (hb : s'.bootFields = s.bootFields)
    (hc : s'.conns = s.conns) : Sound bo pid s' := by
  have ht : s'.todo = s.todo := congrArg Prod.fst hb
  obtain ⟨h1, h2, h3, h4⟩ := h
  exact ⟨h1.of_bootFields
    hb, by rw [hc, ht]; exact h2, by rw [hc]; exact h3, by rw [hc]; exact h4⟩

/-- Two live attempts of one socket are the same. -/
theorem Sound.live_unique (h : Sound bo pid s) {i j : ℕ} {c d : Conn} (hc : s.conns[i]? = some c)
    (hd : s.conns[j]? = some d) (hk : c.cookie = d.cookie) (hlc : c.tcp ≠ .gone)
    (hld : d.tcp ≠ .gone) : i = j := by
  rcases Nat.lt_trichotomy i j with hij | hij | hij
  · exact absurd (h.latest i j c d hij hc hd hk) hlc
  · exact hij
  · exact absurd (h.latest j i d c hij hd hc hk.symm) hld

/-- A connection after connection `i` was set to `c`. -/
theorem mem_setConn {i : ℕ} {c d : Conn} (h : d ∈ (s.setConn i c).conns) :
    d = c ∨ ∃ j, j ≠ i ∧ s.conns[j]? = some d := by
  obtain ⟨j, hj⟩ := List.getElem?_of_mem h
  rcases getElem?_setConn hj with ⟨-, hd⟩ | ⟨hne, hd⟩
  · exact Or.inl hd
  · exact Or.inr ⟨j, hne, hd⟩

/-- A change to one connection that neither revives it nor gives it to another socket. -/
theorem Sound.setConn {i : ℕ} {c c' : Conn} (h : Sound bo pid s) (hc : s.conns[i]? = some c)
    (hk : c'.cookie = c.cookie) (hgone : c.tcp = .gone → c'.tcp = .gone)
    (hacc : c'.fd = .accepted → s.todo = [] ∧ c'.ToProxy bo ∧ c'.tcp ≠ .pending)
    (hpend : c'.tcp = .pending → c'.fd = .waiting) : Sound bo pid (s.setConn i c') where
  booting := h.booting.of_bootFields rfl
  accepted := fun d hd hfd => by
    rcases mem_setConn hd with rfl | ⟨j, -, hj⟩
    · exact hacc hfd
    · exact h.accepted d (List.mem_of_getElem? hj) hfd
  pending := fun d hd ht => by
    rcases mem_setConn hd with rfl | ⟨j, -, hj⟩
    · exact hpend ht
    · exact h.pending d (List.mem_of_getElem? hj) ht
  latest := fun j l d e hjl hd he hkde => by
    rcases getElem?_setConn hd with ⟨rfl, rfl⟩ | ⟨-, hd'⟩ <;>
      rcases getElem?_setConn he with ⟨rfl, rfl⟩ | ⟨-, he'⟩
    · exact absurd hjl (Nat.lt_irrefl _)
    · exact hgone (h.latest j l c e hjl hc he' (hk.symm.trans hkde))
    · exact h.latest j l d c hjl hd' hc (hkde.trans hk)
    · exact h.latest j l d e hjl hd' he' hkde

/-- A new attempt of a socket that has no live one. -/
theorem Sound.attempt {cookie : Cookie} {asked dest : BpfSockAddr} (h : Sound bo pid s)
    (hb : ¬ s.Busy cookie) (socks : MapSocks cap) :
    Sound bo pid { s with socks := socks, conns := s.conns ++ [.attempt cookie asked dest] } where
  booting := h.booting.of_bootFields rfl
  accepted := fun d hd hfd => by
    rcases List.mem_append.1 hd with hd | hd
    · exact h.accepted d hd hfd
    · rw [List.mem_singleton.1 hd] at hfd
      cases hfd
  pending := fun d hd ht => by
    rcases List.mem_append.1 hd with hd | hd
    · exact h.pending d hd ht
    · rw [List.mem_singleton.1 hd]
      rfl
  latest := fun i j c d hij hc hd hk => by
    rcases getElem?_append_one hc with ⟨hi, -⟩ | ⟨hi, hc⟩ <;>
      rcases getElem?_append_one hd with ⟨hj, rfl⟩ | ⟨hj, hd⟩
    · omega
    · omega
    · by_contra hlive
      exact hb ⟨c, List.mem_of_getElem? hc, hk, hlive⟩
    · exact h.latest i j c d hij hc hd hk

theorem sound_step {a : Act} (hI : Sound bo pid s) (h : step bo pid s a = some s') :
    Sound bo pid s' := by
  cases a with
  | boot =>
    have hb := booting_step hI.booting h
    obtain ⟨b, rest, ht, rfl⟩ := step_boot h
    have hconns : (perform pid { s with todo := rest } b).conns = s.conns := by cases b <;> rfl
    refine ⟨hb, fun c hc hfd => ?_, ?_, ?_⟩
    · rw [hconns] at hc
      have hnil := (hI.accepted c hc hfd).1
      rw [ht] at hnil
      cases hnil
    · rw [hconns]; exact hI.pending
    · rw [hconns]; exact hI.latest
  | connect cookie pidTgid ctx =>
    obtain ⟨hbusy, rfl⟩ := step_connect h
    exact hI.attempt hbusy _
  | establish i srcAddr srcPort =>
    obtain ⟨c, hc, hm, rfl⟩ := step_establish h
    have hmid : Sound bo pid { s with ports := s.sockOpsHook c.cookie (establishedCtx srcPort) } :=
      hI.congr rfl rfl
    have hw := hI.pending c (List.mem_of_getElem? hc) hm.1
    refine hmid.setConn hc rfl (fun hg => ?_) (fun hfd => ?_) fun ht => by cases ht
    · rw [hm.1] at hg; cases hg
    · rw [show c.fd = .accepted from hfd] at hw; cases hw
  | sockOps cookie ctx => rw [step_sockOps h]; exact hI
  | close i =>
    obtain ⟨c, hc, ht, rfl⟩ := step_close h
    refine hI.setConn hc rfl (fun _ => rfl) (fun hfd => ?_) fun ht => by cases ht
    have hfd : (if c.tcp = .pending then ProxyEnd.dropped else c.fd) = .accepted := hfd
    have hfd' : c.fd = .accepted := by
      split_ifs at hfd with hp
      exact hfd
    obtain ⟨h1, h2, -⟩ := hI.accepted c (List.mem_of_getElem? hc) hfd'
    exact ⟨h1, h2, by simp⟩
  | accept i =>
    obtain ⟨c, hc, ⟨htodo, hto, hpend, -⟩, rfl⟩ := step_accept h
    exact hI.setConn hc rfl id (fun _ => ⟨htodo, hto, hpend⟩) fun ht => absurd ht hpend
  | drop i =>
    obtain ⟨c, hc, ⟨hpend, -⟩, rfl⟩ := step_drop h
    exact hI.setConn hc rfl id (fun hfd => by cases hfd) fun ht => absurd ht hpend
  | query i retval =>
    obtain ⟨c, hc, hfd, rfl⟩ := step_query h
    have hmid : Sound bo pid (s.afterSockOpt bo (c.queryCtx bo retval)) := hI.congr rfl rfl
    have hpend := (hI.accepted c (List.mem_of_getElem? hc) hfd).2.2
    exact hmid.setConn hc rfl id (fun hfd => by cases hfd) fun ht => absurd ht hpend
  | getsockopt call =>
    rw [← Option.some.inj h]
    exact hI.congr rfl rfl

theorem sound_of_reachable (h : (system bo pid cap).Reachable s) : Sound bo pid s :=
  h.invariant sound_initial fun _ _ _ hI hs => sound_step hI hs

/-! ## What stays of a connection -/

/-- The same attempt after a step. -/
structure Becomes (a : Act) (i : ℕ) (c c' : Conn) : Prop where
  asked : c'.asked = c.asked
  dest : c'.dest = c.dest
  queried : c'.fd = .queried ↔ c.fd = .queried ∨ ∃ retval, a = .query i retval

/-- **Step.** At most one connection changes, or a `connect()` adds one. -/
theorem conns_step {a : Act} (hI : Sound bo pid s) (h : step bo pid s a = some s') :
    (s'.conns = s.conns ∧ ∀ i retval, a ≠ .query i retval) ∨
    (∃ i c c', s.conns[i]? = some c ∧ Becomes a i c c' ∧
      (∀ j retval, a = .query j retval → j = i) ∧
      s'.conns = s.conns.set i c') ∨
    ∃ cookie pidTgid ctx, a = .connect cookie pidTgid ctx ∧
      s'.conns = s.conns ++ [.attempt cookie ctx (s.connectHook bo pidTgid cookie ctx).2] := by
  cases a with
  | boot =>
    obtain ⟨b, rest, -, rfl⟩ := step_boot h
    exact Or.inl ⟨by cases b <;> rfl, nofun⟩
  | connect cookie pidTgid ctx =>
    obtain ⟨-, rfl⟩ := step_connect h
    exact Or.inr (Or.inr ⟨cookie, pidTgid, ctx, rfl, rfl⟩)
  | establish i srcAddr srcPort =>
    obtain ⟨c, hc, -, rfl⟩ := step_establish h
    exact Or.inr (Or.inl
      ⟨i, c, { c with srcAddr := srcAddr, srcPort := srcPort, tcp := .established }, hc,
      ⟨rfl, rfl, (or_iff_left nofun).symm⟩, nofun, rfl⟩)
  | sockOps cookie ctx => exact Or.inl ⟨by rw [step_sockOps h], nofun⟩
  | close i =>
    obtain ⟨c, hc, -, rfl⟩ := step_close h
    refine Or.inr
      (Or.inl ⟨i, c, { c with tcp := .gone, fd := if c.tcp = .pending then .dropped else c.fd },
      hc, ⟨rfl, rfl, ?_⟩, nofun, rfl⟩)
    rw [or_iff_left nofun]
    show (if c.tcp = .pending then ProxyEnd.dropped else c.fd) = .queried ↔ _
    split_ifs with hpend
    · rw [hI.pending c (List.mem_of_getElem? hc) hpend]
      exact iff_of_false nofun nofun
    · exact Iff.rfl
  | accept i =>
    obtain ⟨c, hc, ⟨-, -, -, hfd⟩, rfl⟩ := step_accept h
    refine Or.inr
      (Or.inl ⟨i, c, { c with fd := .accepted }, hc, ⟨rfl, rfl, ?_⟩, nofun, rfl⟩)
    rw [or_iff_left nofun, hfd]
    exact iff_of_false nofun nofun
  | drop i =>
    obtain ⟨c, hc, ⟨-, hfd⟩, rfl⟩ := step_drop h
    refine Or.inr (Or.inl ⟨i, c, { c with fd := .dropped }, hc, ⟨rfl, rfl, ?_⟩, nofun, rfl⟩)
    rw [or_iff_left nofun, hfd]
    exact iff_of_false nofun nofun
  | query i retval =>
    obtain ⟨c, hc, -, rfl⟩ := step_query h
    refine Or.inr (Or.inl ⟨i, c, { c with fd := .queried }, hc,
      ⟨rfl, rfl, iff_of_true rfl (Or.inr ⟨retval, rfl⟩)⟩, fun j _ hq => ?_, rfl⟩)
    cases hq
    rfl
  | getsockopt call =>
    rw [← Option.some.inj h]
    exact Or.inl ⟨rfl, nofun⟩

/-- Attempts are not forgotten. -/
theorem becomes_step {a : Act} (hI : Sound bo pid s) (h : step bo pid s a = some s')
    {j : ℕ} {d : Conn} (hd : s.conns[j]? = some d) :
    ∃ d', s'.conns[j]? = some d' ∧ Becomes a j d d' := by
  have hlt := (List.getElem?_eq_some_iff.1 hd).1
  have hsame (ha : ∀ retval, a ≠ .query j retval) : Becomes a j d d :=
    ⟨rfl, rfl, (or_iff_left fun ⟨retval, heq⟩ => ha retval heq).symm⟩
  rcases conns_step hI h with ⟨heq, ha⟩ | ⟨i, c, c', hc, hcc, ha, heq⟩ | ⟨cookie,
    pidTgid, ctx, ha, heq⟩
  · exact ⟨d, heq ▸ hd, hsame fun retval => ha j retval⟩
  · rw [heq]
    by_cases hij : i = j
    · subst hij
      obtain rfl : c = d := Option.some.inj (hc.symm.trans hd)
      exact ⟨c', List.getElem?_set_self hlt, hcc⟩
    · exact ⟨d, (List.getElem?_set_ne hij).trans hd,
        hsame fun retval hq => hij (ha j retval hq).symm⟩
  · rw [heq]
    exact ⟨d, (List.getElem?_append_left hlt).trans hd,
      hsame fun retval hq => by cases ha.symm.trans hq⟩

/-- An attempt after a step was there before, or the step is its `connect()`. -/
theorem attempt_of_step {a : Act} (hI : Sound bo pid s) (h : step bo pid s a = some s') {j : ℕ}
    {d' : Conn} (hd : s'.conns[j]? = some d') :
    (∃ d, s.conns[j]? = some d ∧ Becomes a j d d') ∨ ∃ cookie pidTgid ctx,
      a = .connect cookie pidTgid ctx ∧ j = s.conns.length ∧
        d' = .attempt cookie ctx (s.connectHook bo pidTgid cookie ctx).2 := by
  by_cases hj : j < s.conns.length
  · obtain ⟨e, he, hbecomes⟩ := becomes_step hI h (List.getElem?_eq_getElem hj)
    obtain rfl : e = d' := Option.some.inj (he.symm.trans hd)
    exact Or.inl ⟨_, List.getElem?_eq_getElem hj, hbecomes⟩
  · have hlt := (List.getElem?_eq_some_iff.1 hd).1
    rcases conns_step hI h with ⟨heq, -⟩ | ⟨i, c, c', -, -, -, heq⟩ | ⟨cookie,
      pidTgid, ctx, ha, heq⟩
    · exact absurd (heq ▸ hlt) hj
    · rw [heq, List.length_set] at hlt
      exact absurd hlt hj
    · rw [heq] at hd
      rcases getElem?_append_one hd with ⟨hlen, rfl⟩ | ⟨hlt, -⟩
      · exact Or.inr ⟨cookie, pidTgid, ctx, ha, hlen, rfl⟩
      · exact absurd hlt hj

end Deployment

end AutomaticCache
