import AutomaticCache.Bpf.Sockets

/-!
# Leaked records

A record belongs to a redirected attempt (`Owned`): the latest one of its socket, still pending, or
established and not queried yet. Only the proxy's query removes entries. So a record outlives its
attempt when the attempt fails or its connection ends unqueried, and when the query of its
connection finds another socket's cookie under the source port, or none.

`noLeak_iff` says that there is no other way. `Tracked` is the invariant: every entry of `map_ports`
was made by the one live connection of its cookie, so that the two maps lose a socket together.
-/

namespace AutomaticCache

open Endian

/-- The attempt is pending, or established with its original destination not yet queried. -/
def Conn.Unanswered (c : Conn) : Prop :=
  c.tcp = .pending ∨ c.tcp = .established ∧ c.fd ≠ .queried

theorem Conn.Unanswered.live {c : Conn} (h : c.Unanswered) : c.tcp ≠ .gone := by
  rcases h with h | ⟨h, -⟩ <;> rw [h] <;> decide

namespace Deployment

variable {cap : ℕ} {bo : ByteOrder} {pid : BitVec 64} {s s' : Deployment cap}

/-- The latest redirected attempt of the socket is unanswered. -/
def Owned (s : Deployment cap) (cookie : Cookie) : Prop :=
  ∃ (i : ℕ) (c : Conn), s.conns[i]? = some c ∧ c.cookie = cookie ∧
    c.Redirected ∧ c.Unanswered ∧
    ∀ (j : ℕ) (d : Conn), i < j → s.conns[j]? = some d →
      d.cookie = cookie → ¬ d.Redirected

/-- No entry is leaked or dangling; so both maps are empty once every redirected attempt is over. -/
structure NoLeak (s : Deployment cap) : Prop where
  owned : ∀ k ∈ s.socks, s.Owned k
  named : ∀ p k, s.ports.lookup p = some k → k ∈ s.socks
  empty : (∀ c ∈ s.conns, c.Redirected → c.tcp = .gone ∨ c.fd = .queried) →
    s.socks = ∅ ∧ s.ports = ∅

/-- An attempt ends only when its socket has no record left; and the proxy queries an established
connection whose socket has a record only while the source port names that socket. -/
def Cleans (s : Deployment cap) : Act → Prop
  | .close i => ∀ c ∈ s.conns[i]?, c.cookie ∉ s.socks
  | .query i _ => ∀ c ∈ s.conns[i]?, c.tcp = .established → c.cookie ∈ s.socks →
    s.ports.lookup c.srcPort = some c.cookie
  | _ => True

instance (s : Deployment cap) : ∀ a, Decidable (s.Cleans a)
  | .close _ | .query _ _ => by unfold Cleans; infer_instance
  | .boot | .connect _ _ _ | .establish _ _ _ | .sockOps _ _ | .accept _ | .drop _
  | .getsockopt _ => isTrue trivial

/-! ## The invariant -/

structure Tracked (bo : ByteOrder) (pid : BitVec 64) (s : Deployment cap) : Prop where
  sound : Sound bo pid s
  owned : ∀ k ∈ s.socks, s.Owned k
  ports : ∀ p k, s.ports.lookup p = some k → k ∈ s.socks ∧
    ∃ c ∈ s.conns, c.cookie = k ∧ c.tcp = .established ∧ c.srcPort = p

theorem tracked_initial : Tracked bo pid (initial : Deployment cap) where
  sound := sound_initial
  owned := fun k hk => absurd hk (BoundedMap.notMem_empty k)
  ports := fun p k h => absurd h (by simp [initial])

theorem Tracked.noLeak (hI : Tracked bo pid s) : s.NoLeak := by
  refine ⟨hI.owned, fun p k h => (hI.ports p k h).1, fun hover => ?_⟩
  have hsocks : ∀ k, k ∉ s.socks := by
    intro k hk
    obtain ⟨i, c, hc, -, hr, hu, -⟩ := hI.owned k hk
    rcases hover c (List.mem_of_getElem? hc) hr with hg | hq
    · exact hu.live hg
    · rcases hu with hp | ⟨-, hne⟩
      · have hw := hI.sound.pending c (List.mem_of_getElem? hc) hp
        rw [hq] at hw
        cases hw
      · exact hne hq
  refine ⟨BoundedMap.eq_empty hsocks, BoundedMap.eq_empty fun p hp => ?_⟩
  obtain ⟨k, hk⟩ := BoundedMap.mem_iff_exists.1 hp
  exact hsocks k (hI.ports p k hk).1

/-- Two ports of one cookie are one port. -/
theorem Tracked.port_unique (hI : Tracked bo pid s) {p p' : BitVec 16} {k : Cookie}
    (h : s.ports.lookup p = some k) (h' : s.ports.lookup p' = some k) : p = p' := by
  obtain ⟨-, c, hc, hck, hct, rfl⟩ := hI.ports p k h
  obtain ⟨-, d, hd, hdk, hdt, rfl⟩ := hI.ports p' k h'
  obtain ⟨i, hi⟩ := List.getElem?_of_mem hc
  obtain ⟨j, hj⟩ := List.getElem?_of_mem hd
  have hij := hI.sound.live_unique hi hj (hck.trans hdk.symm) (by rw [hct]; decide)
    (by rw [hdt]; decide)
  subst hij
  rw [hi, Option.some.injEq] at hj
  rw [hj]

/-! ## One step -/

/-- A change to a connection keeps a record owned unless it ends that record's attempt. -/
theorem Owned.setConn {i : ℕ} {c c' : Conn} {k : Cookie} (h : s.Owned k)
    (hc : s.conns[i]? = some c) (hk : c'.cookie = c.cookie) (hr : c'.Redirected ↔ c.Redirected)
    (hu : c.cookie = k → c.Unanswered → c'.Unanswered) : (s.setConn i c').Owned k := by
  obtain ⟨l, d, hd, hdk, hdr, hdu, hlast⟩ := h
  have hlast' : ∀ (j : ℕ) (e : Conn), l < j → (s.setConn i c').conns[j]? = some e →
      e.cookie = k → ¬ e.Redirected := by
    intro j e hlj he hek
    rcases getElem?_setConn he with ⟨rfl, rfl⟩ | ⟨-, he'⟩
    · rw [hr]
      exact hlast j c hlj hc (hk.symm.trans hek)
    · exact hlast j e hlj he' hek
  by_cases hli : l = i
  · subst hli
    rw [hc, Option.some.injEq] at hd
    subst hd
    exact ⟨l, c', getElem?_setConn_self c' hc, hk.trans hdk, hr.2 hdr, hu hdk hdu, hlast'⟩
  · exact ⟨l, d, (getElem?_setConn_of_ne c' hli).trans hd, hdk, hdr, hdu, hlast'⟩

/-- A change to a connection keeps the invariant unless it ends the attempt of a record. -/
theorem Tracked.setConn {i : ℕ} {c c' : Conn} (hI : Tracked bo pid s) (hc : s.conns[i]? = some c)
    (hsound : Sound bo pid (s.setConn i c')) (hk : c'.cookie = c.cookie)
    (hr : c'.Redirected ↔ c.Redirected)
    (hu : c.cookie ∈ s.socks → c.Unanswered → c'.Unanswered)
    (hport : c.cookie ∈ s.socks → c.tcp = .established →
      c'.tcp = .established ∧ c'.srcPort = c.srcPort) : Tracked bo pid (s.setConn i c') where
  sound := hsound
  owned := fun k hmem => (hI.owned k hmem).setConn hc hk hr fun e => hu (e ▸ hmem)
  ports := fun p k h => by
    obtain ⟨hmem, d, hd, hdk, hdt, hdp⟩ := hI.ports p k h
    refine ⟨hmem, ?_⟩
    obtain ⟨j, hj⟩ := List.getElem?_of_mem hd
    by_cases hji : j = i
    · subst hji
      rw [hc, Option.some.injEq] at hj
      subst hj
      obtain ⟨ht, hp⟩ := hport (hdk ▸ hmem) hdt
      exact ⟨c', List.mem_of_getElem? (getElem?_setConn_self c' hc), hk.trans hdk,
        ht, hp.trans hdp⟩
    · exact ⟨d, List.mem_of_getElem? ((getElem?_setConn_of_ne c' hji).trans hj), hdk, hdt, hdp⟩

theorem Tracked.connect {cookie : Cookie} {pidTgid : BitVec 64} {ctx : BpfSockAddr}
    (hI : Tracked bo pid s) (h : step bo pid s (.connect cookie pidTgid ctx) = some s') :
    Tracked bo pid s' := by
  have hsound := sound_step hI.sound h
  obtain ⟨-, rfl⟩ := step_connect h
  have hold : ∀ {k : Cookie} {r : MapSocks cap × BpfSockAddr}, s.Owned k →
      (cookie = k → ¬ (Conn.attempt cookie ctx r.2).Redirected) →
      Owned { s with socks := r.1, conns := s.conns ++ [.attempt cookie ctx r.2] } k := by
    rintro k r ⟨i, c, hc, hck, hr, hu, hlast⟩ hnew
    have hi := (List.getElem?_eq_some_iff.1 hc).1
    refine ⟨i, c, (List.getElem?_append_left hi).trans hc, hck, hr, hu,
      fun j d hij hd hdk => ?_⟩
    rcases getElem?_append_one hd with ⟨-, rfl⟩ | ⟨-, hd'⟩
    · exact hnew hdk
    · exact hlast j d hij hd' hdk
  by_cases hr : s.RedirectsCall bo pidTgid ctx
  · rw [connectHook_of_redirects cookie hr] at hsound ⊢
    refine ⟨hsound, fun k hk => ?_, fun p k hp => ?_⟩
    · by_cases hkc : cookie = k
      · subst hkc
        refine ⟨s.conns.length, _, List.getElem?_concat_length, rfl,
          hI.sound.booting.rewritten_ne hr, Or.inl rfl, fun j d hj hd => ?_⟩
        rcases getElem?_append_one hd with ⟨hj', -⟩ | ⟨hj', -⟩ <;> omega
      · rcases BoundedMap.mem_of_mem_put hk with rfl | hk
        · exact absurd rfl hkc
        · exact hold (hI.owned k hk) fun e => absurd e hkc
    · obtain ⟨hmem, c, hc, hrest⟩ := hI.ports p k hp
      exact ⟨BoundedMap.mem_put_of_mem _ hmem, c, List.mem_append_left _ hc, hrest⟩
  · rw [connectHook_of_not_redirects cookie hr] at hsound ⊢
    refine ⟨hsound, fun k hk => hold (r := (s.socks, ctx)) (hI.owned k hk) fun _ h => h rfl,
      fun p k hp => ?_⟩
    obtain ⟨hmem, c, hc, hrest⟩ := hI.ports p k hp
    exact ⟨hmem, c, List.mem_append_left _ hc, hrest⟩

/-- The port of an established connection with a record may be written. -/
theorem Tracked.putPort {p : BitVec 16} {c : Conn} (hI : Tracked bo pid s) (hc : c ∈ s.conns)
    (hk : c.cookie ∈ s.socks) (ht : c.tcp = .established) (hp : c.srcPort = p) :
    Tracked bo pid { s with ports := s.ports.put p c.cookie } where
  sound := hI.sound.congr rfl rfl
  owned := hI.owned
  ports := fun p' k h => by
    have h : (s.ports.put p c.cookie).lookup p' = some k := h
    rcases BoundedMap.lookup_put_cases s.ports p c.cookie with hput | hput
    · by_cases hpp : p' = p
      · subst hpp
        rw [hput, Option.some.injEq] at h
        subst h
        exact ⟨hk, c, hc, rfl, ht, hp⟩
      · rw [BoundedMap.lookup_put_of_ne _ hpp] at h
        exact hI.ports p' k h
    · rw [hput] at h
      exact hI.ports p' k h

theorem Tracked.establish {i : ℕ} {srcAddr : BitVec 32} {srcPort : BitVec 16}
    (hI : Tracked bo pid s) (h : step bo pid s (.establish i srcAddr srcPort) = some s') :
    Tracked bo pid s' := by
  have hsound := sound_step hI.sound h
  obtain ⟨c, hc, hm, rfl⟩ := step_establish h
  have hw := hI.sound.pending c (List.mem_of_getElem? hc) hm.1
  have hset : Tracked bo pid (s.setConn i
      { c with srcAddr := srcAddr, srcPort := srcPort, tcp := .established }) := by
    refine hI.setConn hc (hsound.congr rfl rfl) rfl Iff.rfl (fun _ _ => Or.inr ⟨rfl, ?_⟩) ?_
    · show c.fd ≠ .queried
      rw [hw]; decide
    · intro _ ht
      rw [hm.1] at ht
      cases ht
  rw [sockOpsHook_established]
  by_cases hk : s.sockOps = true ∧ c.cookie ∈ s.socks
  · rw [if_pos hk]
    have hmem := List.mem_of_getElem? (getElem?_setConn_self
      { c with srcAddr := srcAddr, srcPort := srcPort, tcp := .established } hc)
    have hput := hset.putPort hmem hk.2 rfl rfl
    exact hput
  · rw [if_neg hk]
    exact hset

/-- Whoever is answered, a record and its port are taken away together. -/
theorem Tracked.afterSockOpt (hI : Tracked bo pid s) (ctx : BpfSockopt) :
    Tracked bo pid (s.afterSockOpt bo ctx) := by
  by_cases hans : s.AnswersCall bo ctx
  · obtain ⟨cookie, sock, hl, -, heq⟩ := sockOptHook_of_answers hans
    have hsocks : (s.afterSockOpt bo ctx).socks = s.socks.delete cookie := by
      show (s.sockOptHook bo ctx).2.1 = _
      rw [heq]
    have hports : (s.afterSockOpt bo ctx).ports = s.ports.delete (ntohs bo ctx.skDstPort) := by
      show (s.sockOptHook bo ctx).1 = _
      rw [heq]
    refine ⟨hI.sound.congr rfl rfl, fun k hk => ?_, fun p k h => ?_⟩
    · rw [hsocks] at hk
      exact hI.owned k (BoundedMap.mem_delete.1 hk).2
    · rw [hports] at h
      rw [hsocks]
      by_cases hp : p = ntohs bo ctx.skDstPort
      · rw [hp, BoundedMap.lookup_delete] at h
        cases h
      · rw [BoundedMap.lookup_delete_of_ne hp] at h
        obtain ⟨hmem, hconn⟩ := hI.ports p k h
        refine ⟨BoundedMap.mem_delete.2 ⟨fun e => hp ?_, hmem⟩, hconn⟩
        exact hI.port_unique (e ▸ h) hl
  · rw [afterSockOpt_of_not_answers hans]
    exact hI

/-- After its query, an established connection's socket has a record left exactly when it had one
and the source port did not name it. -/
theorem Sound.mem_afterQuery (hI : Sound bo pid s) {i : ℕ} {c : Conn} (retval : ℤ)
    (hc : s.conns[i]? = some c) (hfd : c.fd = .accepted) :
    c.cookie ∉ (s.afterSockOpt bo (c.queryCtx bo retval)).socks ↔
      (c.cookie ∈ s.socks → s.ports.lookup c.srcPort = some c.cookie) := by
  have hport : ntohs bo (c.queryCtx bo retval).skDstPort = c.srcPort := ntohs_htons bo c.srcPort
  by_cases hans : s.AnswersCall bo (c.queryCtx bo retval)
  · obtain ⟨cookie, sock, hl, -, heq⟩ := sockOptHook_of_answers hans
    have hsocks : (s.afterSockOpt bo (c.queryCtx bo retval)).socks = s.socks.delete cookie := by
      show (s.sockOptHook bo _).2.1 = _
      rw [heq]
    rw [hport] at hl
    rw [hsocks, BoundedMap.mem_delete, hl, not_and, not_imp_comm]
    constructor
    · intro h hmem
      rw [h (not_not.2 hmem)]
    · intro h hnm
      exact (Option.some.inj (h (not_not.1 hnm))).symm
  · rw [afterSockOpt_of_not_answers hans]
    have hopt : s.sockOpt = true := by
      rw [hI.booting.sockOpt, (hI.accepted c (List.mem_of_getElem? hc) hfd).1]
      exact List.not_mem_nil
    constructor
    · exact fun h hmem => absurd hmem h
    · intro h hmem
      exact hans ⟨hopt, ⟨rfl, rfl, rfl⟩, ⟨c.cookie, hport ▸ h hmem, hmem⟩, le_rfl⟩

theorem Tracked.query {i : ℕ} {retval : ℤ} (hI : Tracked bo pid s)
    (hok : s.Cleans (.query i retval)) (h : step bo pid s (.query i retval) = some s') :
    Tracked bo pid s' := by
  have hsound := sound_step hI.sound h
  obtain ⟨c, hc, hfd, rfl⟩ := step_query h
  have hI' := hI.afterSockOpt (c.queryCtx bo retval)
  refine hI'.setConn hc hsound rfl Iff.rfl (fun hmem hu => ?_) fun _ ht => ⟨ht, rfl⟩
  -- the attempt is over, so that its socket must have no record left
  have hest : c.tcp = .established := by
    rcases hu with hp | ⟨ht, -⟩
    · exact absurd hp (hI.sound.accepted c (List.mem_of_getElem? hc) hfd).2.2
    · exact ht
  exact absurd hmem ((hI.sound.mem_afterQuery retval hc hfd).2 (hok c hc hest))

/-- What a step that cleans keeps. -/
theorem tracked_step {a : Act} (hI : Tracked bo pid s) (hok : s.Cleans a)
    (h : step bo pid s a = some s') : Tracked bo pid s' := by
  have hsound := sound_step hI.sound h
  cases a with
  | boot =>
    obtain ⟨b, rest, -, rfl⟩ := step_boot h
    cases b <;> exact ⟨hsound, hI.owned, hI.ports⟩
  | connect cookie pidTgid ctx => exact hI.connect h
  | establish i srcAddr srcPort => exact hI.establish h
  | sockOps cookie ctx => rw [step_sockOps h]; exact hI
  | close i =>
    obtain ⟨c, hc, -, rfl⟩ := step_close h
    exact hI.setConn hc hsound rfl Iff.rfl (fun hk => absurd hk (hok c hc))
      fun hk => absurd hk (hok c hc)
  | accept i =>
    obtain ⟨c, hc, -, rfl⟩ := step_accept h
    refine hI.setConn hc hsound rfl Iff.rfl (fun _ hu => ?_) fun _ ht => ⟨ht, rfl⟩
    exact hu.imp_right fun ht => ⟨ht.1, fun hq => ProxyEnd.noConfusion hq⟩
  | drop i =>
    obtain ⟨c, hc, -, rfl⟩ := step_drop h
    refine hI.setConn hc hsound rfl Iff.rfl (fun _ hu => ?_) fun _ ht => ⟨ht, rfl⟩
    exact hu.imp_right fun ht => ⟨ht.1, fun hq => ProxyEnd.noConfusion hq⟩
  | query i retval => exact hI.query hok h
  | getsockopt call =>
    obtain rfl : s.afterSockOpt bo call.ctx = s' := Option.some.inj h
    exact hI.afterSockOpt call.ctx

/-! ## The other direction -/

/-- A record of a live attempt's socket is owned by that attempt. -/
theorem Sound.unanswered_of_owned (h : Sound bo pid s) {i : ℕ} {c c' : Conn}
    (hc : s.conns[i]? = some c) (hlive : c.tcp ≠ .gone)
    (hown : (s.setConn i c').Owned c.cookie) : c'.Unanswered := by
  obtain ⟨j, d, hd, hdk, -, hdu, -⟩ := hown
  rcases getElem?_setConn hd with ⟨rfl, rfl⟩ | ⟨hne, hd'⟩
  · exact hdu
  · exact absurd (h.live_unique hd' hc hdk hdu.live hlive) hne

/-- A step after which nothing is leaked cleans. -/
theorem cleans_of_noLeak {a : Act} (hI : Tracked bo pid s) (h : step bo pid s a = some s')
    (hs' : s'.NoLeak) : s.Cleans a := by
  cases a with
  | close i =>
    obtain ⟨c, hc, hlive, rfl⟩ := step_close h
    intro d hd hmem
    obtain rfl : c = d := Option.some.inj (hc.symm.trans hd)
    rcases hI.sound.unanswered_of_owned hc hlive (hs'.owned c.cookie hmem) with hp | ⟨ht, -⟩
    · cases hp
    · cases ht
  | query i retval =>
    obtain ⟨c, hc, hfd, rfl⟩ := step_query h
    intro d hd ht
    obtain rfl : c = d := Option.some.inj (hc.symm.trans hd)
    refine (hI.sound.mem_afterQuery retval hc hfd).1 fun hmem => ?_
    have hsound : Sound bo pid (s.afterSockOpt bo (c.queryCtx bo retval)) :=
      hI.sound.congr rfl rfl
    have hlive : c.tcp ≠ .gone := by rw [ht]; decide
    rcases hsound.unanswered_of_owned hc hlive (hs'.owned c.cookie hmem) with hp | ⟨-, hq⟩
    · exact absurd (ht.symm.trans hp) (by decide)
    · exact hq rfl
  | _ => trivial

/-- **No leaked or dangling records.** Along a run, no state has a leaked or a dangling entry
exactly when every step cleans: no attempt ends while its socket has a record, and the query of an
established connection whose socket has a record finds that socket under its source port. -/
theorem noLeak_iff (bo : ByteOrder) (pid : BitVec 64) (cap : ℕ) (as : List Act)
    (s : Deployment cap) (hrun : (system bo pid cap).run initial as = some s) :
    (system bo pid cap).States NoLeak initial as ↔ (system bo pid cap).Steps Cleans initial as :=
  Runs.System.states_iff_steps (fun _ _ _ hI hok hs => tracked_step hI hok hs)
    (fun _ _ _ hI hs => ⟨cleans_of_noLeak hI hs, fun hok => (tracked_step hI hok hs).noLeak⟩)
    tracked_initial hrun

/-- The start-up, then socket 7 connects to `10.0.0.1:9000`. -/
def oneAttempt : List Act :=
  [.boot, .boot, .boot, .boot, .boot,
    .connect 7 (1000 <<< 32) (.ofConnect .little 0x0a000001 9000)]

/-- A connection that is queried before it ends leaves nothing behind. -/
theorem noLeak_queried :
    ∃ s, (system .little 4242 maxConnections).run initial
        (oneAttempt ++ [.establish 0 loopback 40000, .accept 0, .query 0 (-92), .close 0]) =
        some s ∧
      (system .little 4242 maxConnections).States NoLeak initial
        (oneAttempt ++ [.establish 0 loopback 40000, .accept 0, .query 0 (-92), .close 0]) :=
  ⟨_, rfl, (noLeak_iff .little 4242 maxConnections _ _ rfl).2 (by decide)⟩

/-- A refused attempt leaves its record in `map_socks`. -/
theorem leaked_refused :
    ¬ ∀ as s, (system .little 4242 maxConnections).run initial as = some s → s.NoLeak := by
  intro h
  have hrun : ∃ s, (system .little 4242 maxConnections).run initial (oneAttempt ++ [.close 0]) =
      some s ∧ (∀ c ∈ s.conns, c.tcp = .gone) ∧ 7 ∈ s.socks :=
        ⟨_, rfl, by decide, by decide⟩
  obtain ⟨s, hs, hgone, hmem⟩ := hrun
  rw [((h _ s hs).empty fun c hc _ => Or.inl (hgone c hc)).1] at hmem
  exact BoundedMap.notMem_empty 7 hmem

end Deployment

end AutomaticCache
