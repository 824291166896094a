import AutomaticCache.Bpf.Serializable
import Mathlib.Logic.Relation

/-!
# One hook at a time

The other way round than `hooks_serializable`: what the atomic hooks of `Hooks.lean` do one after
the other, the kernel can do helper call by helper call, also where a map is full and an update
fails (`atomic_run`). The maps of the two models agree when they hold the same plain values
(`Agree`); the kernel's choice for an update fits when it fails exactly where the bounded map does
not admit the key.
-/

namespace AutomaticCache

open Endian

variable {ρ : Type} {bo : ByteOrder} {cap : ℕ}

/-- The maps with slots hold the plain values of the others. -/
structure Maps.Agree (m : Maps ρ) (conf : Config) (ports : MapPorts cap) (socks : MapSocks cap) :
    Prop where
  config : m.config = conf
  ports : ∀ p, m.ports.get p = ports.lookup p
  socks : ∀ k, m.socks.get k = socks.lookup k

variable [DecidableEq ρ]

/-- The kernel's choice for an update: a slot if the map admits the key, and a failure if not. -/
def Fits {κ ν : Type} [DecidableEq κ] (m : SlotMap κ ν ρ)
    (b : BoundedMap κ ν cap) (k : κ) :
    Option ρ → Prop
  | some r => m.Available k r ∧ b.Admits k
  | none => ¬ b.Admits k

omit [DecidableEq ρ] in
/-- With as many slots as the map may hold keys, there is such a choice. -/
theorem exists_fits [Fintype ρ] (hcap : cap ≤ Fintype.card ρ) {κ ν : Type} [DecidableEq κ]
    {m : SlotMap κ ν ρ} {b : BoundedMap κ ν cap} (h : ∀ k, m.get k = b.lookup k) (k : κ) :
    ∃ slot, Fits m b k slot := by
  by_cases hadm : b.Admits k
  swap
  · exact ⟨none, hadm⟩
  suffices havailable : ∃ r, m.Available k r from
    havailable.elim fun r hr => ⟨some r, hr, hadm⟩
  have hkey {k' : κ} {r : ρ} (hi : m.index k' = some r) : k' ∈ b := by
    rw [BoundedMap.mem_iff_lookup, ← h, SlotMap.get_of_index hi]
    exact Option.some_ne_none _
  rcases hadm with hmem | hroom
  · rw [BoundedMap.mem_iff_lookup, ← h, Ne, SlotMap.get_eq_none] at hmem
    obtain ⟨r, hr⟩ := Option.ne_none_iff_exists'.1 hmem
    exact ⟨r, Or.inr ((m.coherent k r).1 hr)⟩
  · -- otherwise every slot has a key of its own
    by_contra hnone
    have howned (r : ρ) : ∃ k', m.owner r = some k' :=
      Option.ne_none_iff_exists'.1 fun hfree => hnone ⟨r, Or.inl hfree⟩
    choose key howner using howned
    have hindex (r : ρ) : m.index (key r) = some r := (m.coherent _ r).2 (howner r)
    have hinj : Function.Injective key := fun r r' heq =>
      Option.some.inj ((hindex r).symm.trans (heq ▸ hindex r'))
    have hcard := Finset.card_le_card_of_injOn (s := Finset.univ) (t := b.entries.keys) key
      (fun r _ => BoundedMap.mem_iff_keys.1 (hkey (hindex r))) hinj.injOn
    exact hroom (hcap.trans (Finset.card_univ (α := ρ) ▸ hcard))

namespace Maps.Agree

variable {m : Maps ρ} {conf : Config} {ports : MapPorts cap} {socks : MapSocks cap}

theorem putSock (h : m.Agree conf ports socks) {k : Cookie} (v : Socket) {slot : Option ρ}
    (hfit : Fits m.socks socks k slot) :
    ∃ m', m.putSock k v slot = some m' ∧ m'.Agree conf ports (socks.put k v) := by
  cases slot with
  | none =>
    exact ⟨m, rfl, h.config, h.ports, by rw [BoundedMap.put_eq_self v hfit]; exact h.socks⟩
  | some r =>
    refine ⟨_, dif_pos hfit.1, h.config, h.ports, fun k' => ?_⟩
    show (m.socks.update k v r hfit.1).get k' = _
    by_cases hk : k' = k
    · rw [hk, SlotMap.get_update, BoundedMap.lookup_put v hfit.2]
    · rw [SlotMap.get_update_of_ne hfit.1 hk, BoundedMap.lookup_put_of_ne v hk, h.socks]

theorem putPort (h : m.Agree conf ports socks) {p : BitVec 16} (k : Cookie) {slot : Option ρ}
    (hfit : Fits m.ports ports p slot) :
    ∃ m', m.putPort p k slot = some m' ∧ m'.Agree conf (ports.put p k) socks := by
  cases slot with
  | none =>
    exact ⟨m, rfl, h.config, by rw [BoundedMap.put_eq_self k hfit]; exact h.ports, h.socks⟩
  | some r =>
    refine ⟨_, dif_pos hfit.1, h.config, fun p' => ?_, h.socks⟩
    show (m.ports.update p k r hfit.1).get p' = _
    by_cases hp : p' = p
    · rw [hp, SlotMap.get_update, BoundedMap.lookup_put k hfit.2]
    · rw [SlotMap.get_update_of_ne hfit.1 hp, BoundedMap.lookup_put_of_ne k hp, h.ports]

omit [DecidableEq ρ] in
theorem delete (h : m.Agree conf ports socks) (p : BitVec 16) (k : Cookie) :
    ({ m with ports := m.ports.delete p, socks := m.socks.delete k } : Maps ρ).Agree conf
      (ports.delete p) (socks.delete k) where
  config := h.config
  ports := fun p' => by
    show (m.ports.delete p).get p' = _
    by_cases hp : p' = p
    · rw [hp, SlotMap.get_delete, BoundedMap.lookup_delete]
    · rw [SlotMap.get_delete_of_ne hp, BoundedMap.lookup_delete_of_ne hp, h.ports]
  socks := fun k' => by
    show (m.socks.delete k).get k' = _
    by_cases hk : k' = k
    · rw [hk, SlotMap.get_delete, BoundedMap.lookup_delete]
    · rw [SlotMap.get_delete_of_ne hk, BoundedMap.lookup_delete_of_ne hk, h.socks]

end Maps.Agree

namespace Kernel

variable {s : Kernel ρ} {m m' : Maps ρ} {cs : List (Invocation ρ)} {inv inv' : Invocation ρ}

/-- The last invocation makes its next step. -/
theorem step_last {slot : Option ρ} (h : inv.next bo m slot = some (m', inv')) :
    step bo ⟨m, cs ++ [inv]⟩ (.advance cs.length slot) = some ⟨m', cs ++ [inv']⟩ := by
  simp only [step]
  rw [List.getElem?_append_right le_rfl, Nat.sub_self, List.getElem?_cons_zero, Option.bind_some, h,
    Option.map_some, List.set_append_right _ _ le_rfl, Nat.sub_self, List.set_cons_zero]

/-- The invocation makes its steps one after the other. -/
def Advances (bo : ByteOrder) (slot : Option ρ) :
    Maps ρ × Invocation ρ → Maps ρ × Invocation ρ → Prop :=
  Relation.ReflTransGen fun r r' => r.2.next bo r.1 slot = some r'

/-- The last invocation makes its steps without any other in between. -/
theorem run_last {slot : Option ρ} (h : Advances bo slot (m, inv) (m', inv')) :
    ∃ n, (system bo ρ).run ⟨m, cs ++ [inv]⟩ (List.replicate n (.advance cs.length slot)) =
      some ⟨m', cs ++ [inv']⟩ := by
  unfold Advances at h
  generalize hr : (m, inv) = r at h
  induction h using Relation.ReflTransGen.head_induction_on generalizing m inv with
  | refl => cases hr; exact ⟨0, rfl⟩
  | head hstep _ ih =>
    subst hr
    obtain ⟨n, hn⟩ := ih rfl
    exact ⟨n + 1, (Runs.System.run_cons_eq (step_last hstep)).trans hn⟩

end Kernel

/-! ## The three hooks -/

section

variable {m : Maps ρ} {conf : Config} {ports : MapPorts cap} {socks : MapSocks cap}

variable (bo) in
/-- Alone, the steps of a query are `cgSockOpt`. -/
theorem SockOptCall.advances (h : m.Agree conf ports socks) (slot : Option ρ) (ctx : BpfSockopt)
    (k : Cookie) : ∃ m' k', m'.Agree conf (cgSockOpt bo ports socks ctx).2.1
        (cgSockOpt bo ports socks ctx).2.2.1 ∧
      Kernel.Advances bo slot (m, .sockOpt ⟨ctx, ctx, k, .start⟩)
        (m', .sockOpt ⟨ctx, (cgSockOpt bo ports socks ctx).2.2.2, k', .done⟩) := by
  by_cases hq : Queries ctx
  swap
  · rw [cgSockOpt_of_not_resolves fun hr => hq hr.1]
    refine ⟨m, k, h, .single ?_⟩
    unfold Queries at hq
    simp only [Invocation.next, next]
    split_ifs with hn hf hp
    · rfl
    · rfl
    · rfl
    · exact absurd ⟨not_not.1 hn, not_not.1 hf, not_not.1 hp⟩ hq
  obtain ⟨hn, hf, hp⟩ := hq
  cases hport : ports.lookup (ntohs bo ctx.skDstPort) with
  | none =>
    rw [cgSockOpt_of_not_resolves fun hr => by
      obtain ⟨-, ⟨_, hl, -⟩, -⟩ := hr
      rw [hport] at hl
      cases hl]
    have hi : m.ports.index (ntohs bo ctx.skDstPort) = none :=
      SlotMap.get_eq_none.1 ((h.ports _).trans hport)
    refine ⟨m, k, h, .single ?_⟩
    simp [Invocation.next, next, srcPort, hn, hf, hp, hi]
  | some cookie =>
    obtain ⟨r, hi, hr⟩ := SlotMap.get_eq_some.1 ((h.ports _).trans hport)
    have hfirst : (Invocation.sockOpt (ρ := ρ) ⟨ctx, ctx, k, .start⟩).next bo m slot =
        some (m, .sockOpt ⟨ctx, ctx, cookie, .port r⟩) := by
      simp [Invocation.next, next, srcPort, hn, hf, hp, hi, hr]
    cases hsock : socks.lookup cookie with
    | none =>
      rw [cgSockOpt_of_not_resolves fun hr => by
        obtain ⟨-, ⟨_, hl, hm⟩, -⟩ := hr
        rw [hport, Option.some.injEq] at hl
        exact hm (hl ▸ hsock)]
      have hi' : m.socks.index cookie = none := SlotMap.get_eq_none.1 ((h.socks _).trans hsock)
      refine ⟨m, cookie, h, .head hfirst (.single ?_)⟩
      simp [Invocation.next, next, hr, hi']
    | some sock =>
      obtain ⟨r', hi', hr'⟩ := SlotMap.get_eq_some.1 ((h.socks _).trans hsock)
      by_cases hsize : ctx.optvalSize < sizeofSockaddrIn
      · rw [cgSockOpt_of_not_resolves fun hr => absurd hr.2.2 (Nat.not_le.2 hsize)]
        refine ⟨m, cookie, h, .head hfirst (.single ?_)⟩
        simp [Invocation.next, next, hr, hi', hsize]
      · rw [cgSockOpt_of_resolves ⟨hn, hf, hp⟩ hport hsock (Nat.not_lt.1 hsize)]
        refine ⟨_, cookie, h.delete (ntohs bo ctx.skDstPort) cookie, .head hfirst ?_⟩
        refine .head (b := (m, .sockOpt ⟨ctx, ctx, cookie, .sock r r'⟩)) ?_ ?_
        · simp [Invocation.next, next, hr, hi', hsize]
        refine .head (b := (m, .sockOpt ⟨ctx, answered bo sock ctx, cookie, .answered r⟩)) ?_ ?_
        · simp [Invocation.next, next, hr']
        refine .head (b := ({ m with ports := m.ports.delete (ntohs bo ctx.skDstPort) },
          .sockOpt ⟨ctx, answered bo sock ctx, cookie, .portDeleted r⟩)) ?_ (.single ?_)
        · simp [Invocation.next, next, srcPort]
        · simp [Invocation.next, next, hr]

variable (bo) in
/-- Alone, the steps of a socket operation are `cgSockOps`. -/
theorem SockOpsCall.advances (h : m.Agree conf ports socks) {slot : Option ρ} (cookie : Cookie)
    {ctx : BpfSockOps} (hfit : Fits m.ports ports (ctx.localPort.setWidth 16) slot) :
    ∃ m', m'.Agree conf (cgSockOps cookie socks ports ctx).2 socks ∧
      Kernel.Advances bo slot (m, .sockOps ⟨cookie, ctx, .start⟩)
        (m', .sockOps ⟨cookie, ctx, .done⟩) := by
  unfold cgSockOps
  split_ifs with hf hop
  · refine ⟨m, h, .single ?_⟩
    simp [Invocation.next, next, hf]
  · cases hsock : socks.lookup cookie with
    | none =>
      have hi : m.socks.index cookie = none := SlotMap.get_eq_none.1 ((h.socks _).trans hsock)
      refine ⟨m, h, .single ?_⟩
      simp [Invocation.next, next, hf, hop, hi]
    | some sock =>
      obtain ⟨r, hi, -⟩ := SlotMap.get_eq_some.1 ((h.socks _).trans hsock)
      obtain ⟨m', hput, hm'⟩ := h.putPort cookie hfit
      refine ⟨m', hm', .head (b := (m, .sockOps ⟨cookie, ctx, .known⟩)) ?_ (.single ?_)⟩
      · simp [Invocation.next, next, hf, hop, hi]
      · simp [Invocation.next, next, srcPort, hput]
  · refine ⟨m, h, .single ?_⟩
    simp [Invocation.next, next, hf, hop]

variable (bo) in
/-- Alone, the steps of a `connect()` are `cgConnect4`. -/
theorem Connect4Call.advances (h : m.Agree conf ports socks) {slot : Option ρ}
    (pidTgid : BitVec 64) {cookie : Cookie} (ctx : BpfSockAddr)
    (hfit : Fits m.socks socks cookie slot) :
    ∃ m', m'.Agree conf ports (cgConnect4 bo conf pidTgid cookie socks ctx).2.1 ∧
      Kernel.Advances bo slot (m, .connect4 ⟨pidTgid, cookie, ctx, .start⟩)
        (m', .connect4 ⟨pidTgid, cookie, (cgConnect4 bo conf pidTgid cookie socks ctx).2.2,
          .done⟩) := by
  by_cases hr : Redirects bo conf pidTgid ctx
  · rw [cgConnect4_of_redirects cookie socks hr]
    obtain ⟨hf, hp, hport, hpid⟩ := hr
    obtain ⟨m', hput, hm'⟩ := h.putSock (recordOf bo ctx) hfit
    refine ⟨m', hm', .head (b := (m, .connect4 ⟨pidTgid, cookie, ctx, .redirect⟩))
      ?_ (.single ?_)⟩
    · simp [Invocation.next, next, BpfSockAddr.userPort, lookupConfig, h.config, hf,
        hp, hport, hpid]
    · simp [Invocation.next, next, hput, hm'.config]
  · rw [cgConnect4_of_not_redirects cookie socks hr]
    refine ⟨m, h, .single ?_⟩
    unfold Redirects at hr
    simp only [Invocation.next, next, lookupConfig, if_true]
    split_ifs with hf hp hport hpid
    · rfl
    · rfl
    · rfl
    · rfl
    · rw [h.config] at hpid
      exact absurd ⟨not_not.1 hf, not_not.1 hp, setWidth_inj.1 (not_not.1 hport), hpid⟩ hr

end

/-- Not of the loader's write. -/
def Outcome.ofHook : Outcome → Bool
  | .configured => false
  | .connect4 _ | .sockOps | .sockOpt _ => true

namespace Kernel

variable {s : Kernel ρ} {conf : Config} {ports : MapPorts cap} {socks : MapSocks cap}

/-- A query that runs alone is atomic. -/
theorem sockOpt_alone (h : s.maps.Agree conf ports socks) (slot : Option ρ) (ctx : BpfSockopt) :
    ∃ n m' k', m'.Agree conf (cgSockOpt bo ports socks ctx).2.1
        (cgSockOpt bo ports socks ctx).2.2.1 ∧
      (system bo ρ).run s (.sockOpt ctx :: List.replicate n (.advance s.calls.length slot)) =
        some ⟨m', s.calls ++
          [.sockOpt ⟨ctx, (cgSockOpt bo ports socks ctx).2.2.2, k', .done⟩]⟩ := by
  obtain ⟨m', k', hm', hadv⟩ := SockOptCall.advances bo h slot ctx 0
  obtain ⟨n, hn⟩ := run_last hadv
  exact ⟨n, m', k', hm', hn⟩

theorem sockOps_alone (h : s.maps.Agree conf ports socks) {slot : Option ρ} {cookie : Cookie}
    {ctx : BpfSockOps} (hfit : Fits s.maps.ports ports (ctx.localPort.setWidth 16) slot) :
    ∃ n m', m'.Agree conf (cgSockOps cookie socks ports ctx).2 socks ∧
      (system bo ρ).run s (.sockOps cookie ctx :: List.replicate n
        (.advance s.calls.length slot)) =
        some ⟨m', s.calls ++ [.sockOps ⟨cookie, ctx, .done⟩]⟩ := by
  obtain ⟨m', hm', hadv⟩ := SockOpsCall.advances bo h cookie hfit
  obtain ⟨n, hn⟩ := run_last hadv
  exact ⟨n, m', hm', hn⟩

theorem connect4_alone (h : s.maps.Agree conf ports socks) {slot : Option ρ}
    {pidTgid : BitVec 64} {cookie : Cookie} {ctx : BpfSockAddr}
    (hfit : Fits s.maps.socks socks cookie slot) :
    ∃ n m', m'.Agree conf ports (cgConnect4 bo conf pidTgid cookie socks ctx).2.1 ∧
      (system bo ρ).run s
          (.connect4 pidTgid cookie ctx :: List.replicate n (.advance s.calls.length slot)) =
        some ⟨m', s.calls ++ [.connect4 ⟨pidTgid, cookie,
          (cgConnect4 bo conf pidTgid cookie socks ctx).2.2, .done⟩]⟩ := by
  obtain ⟨m', hm', hadv⟩ := Connect4Call.advances bo h pidTgid ctx hfit
  obtain ⟨n, hn⟩ := run_last hadv
  exact ⟨n, m', hm', hn⟩

/-! ### Runs -/

/-- What begins with the step, if anything does. -/
def began (a : KernelAct ρ) : Option HookCall := a.configuration <|> a.call

/-- The kernel has done what the atomic hooks have done. -/
structure Did (bo : ByteOrder) (as : List (KernelAct ρ)) (s : Kernel ρ) (calls : List HookCall)
    (h : Hooks cap) : Prop where
  run : (system bo ρ).run initial as = some s
  began : as.filterMap began = calls
  maps : s.maps.Agree h.config h.ports h.socks
  ended : ∀ inv ∈ s.calls, inv.isDone = true
  outcomes : s.calls.map (fun inv => inv.rest bo) =
    (h.outcomes.filter Outcome.ofHook).map Prog.ret

theorem Did.concat {as as' : List (KernelAct ρ)} {calls : List HookCall} {h h' : Hooks cap}
    {s' : Kernel ρ} {inv : Invocation ρ} {c : HookCall} {o : Outcome} (hdid : Did bo as s calls h)
    (hrun : (system bo ρ).run s as' = some s') (hbegan : as'.filterMap Kernel.began = [c])
    (hmaps : s'.maps.Agree h'.config h'.ports h'.socks) (hcalls : s'.calls = s.calls ++ [inv])
    (hdone : inv.isDone = true) (hrest : inv.rest bo = .ret o)
    (houtcomes : h'.outcomes = h.outcomes ++ [o]) (ho : o.ofHook = true) :
    Did bo (as ++ as') s' (calls ++ [c]) h' where
  run := (Runs.System.run_append_eq _ hdid.run).trans hrun
  began := by rw [List.filterMap_append, hdid.began, hbegan]
  maps := hmaps
  ended := by
    rw [hcalls]
    exact List.forall_mem_append.2 ⟨hdid.ended, List.forall_mem_singleton.2 hdone⟩
  outcomes := by
    rw [hcalls, List.map_append, hdid.outcomes, houtcomes, List.filter_append, List.map_append,
      List.filter_singleton, ho, List.map_singleton, hrest]
    rfl

omit [DecidableEq ρ] in
theorem began_alone {a : KernelAct ρ} {c : HookCall} (hbegan : Kernel.began a = some c) (n i : ℕ)
    (slot : Option ρ) : (a :: List.replicate n (.advance i slot)).filterMap
      Kernel.began = [c] := by
  rw [List.filterMap_cons_some hbegan, List.filterMap_replicate_of_none rfl]

/-- The next hook, on its own. -/
theorem Did.call [Fintype ρ] (hcap : cap ≤ Fintype.card ρ) {as : List (KernelAct ρ)}
    {calls : List HookCall} {h : Hooks cap} (hdid : Did bo as s calls h) (c : HookCall) :
    ∃ as' s', Did bo (as ++ as') s' (calls ++ [c]) (h.call bo c) := by
  cases c with
  | configure conf =>
    refine ⟨[.configure conf], { s with maps := { s.maps with config := conf } },
      (Runs.System.run_append_eq _ hdid.run).trans rfl, ?_,
      ⟨rfl, hdid.maps.ports, hdid.maps.socks⟩,
      hdid.ended, ?_⟩
    · rw [List.filterMap_append, hdid.began]
      rfl
    · rw [hdid.outcomes]
      unfold Hooks.call
      dsimp only
      rw [List.filter_append, List.filter_singleton]
      exact congrArg (List.map Prog.ret) (List.append_nil _).symm
  | connect4 pidTgid cookie ctx =>
    obtain ⟨slot, hfit⟩ := exists_fits hcap hdid.maps.socks cookie
    obtain ⟨n, m', hmaps, hrun⟩ := connect4_alone hdid.maps hfit
    exact ⟨_, _, hdid.concat hrun (began_alone rfl n _ slot) hmaps rfl rfl rfl rfl rfl⟩
  | sockOps cookie ctx =>
    obtain ⟨slot, hfit⟩ := exists_fits hcap hdid.maps.ports (ctx.localPort.setWidth 16)
    obtain ⟨n, m', hmaps, hrun⟩ := sockOps_alone hdid.maps hfit
    exact ⟨_, _, hdid.concat hrun (began_alone rfl n _ slot) hmaps rfl rfl rfl rfl rfl⟩
  | sockOpt ctx =>
    obtain ⟨n, m', k', hmaps, hrun⟩ := sockOpt_alone hdid.maps none ctx
    exact ⟨_, _, hdid.concat hrun (began_alone rfl n _ none) hmaps rfl rfl rfl rfl rfl⟩

theorem did_initial (bo : ByteOrder) (cap : ℕ) :
    Did bo ([] : List (KernelAct ρ)) initial [] (Hooks.initial cap) where
  run := rfl
  began := rfl
  maps :=
    ⟨rfl, fun p => (BoundedMap.lookup_empty p).symm, fun k => (BoundedMap.lookup_empty k).symm⟩
  ended := nofun
  outcomes := rfl

/-- **One hook at a time.** Every run of the atomic hooks is one of the kernel's, in which the next
hook begins when the one before it has ended. -/
theorem atomic_run [Fintype ρ] (hcap : cap ≤ Fintype.card ρ)
    (calls : List HookCall) {h : Hooks cap} (hrun : (Hooks.system bo cap).run (Hooks.initial cap)
      calls = some h) :
    ∃ (as : List (KernelAct ρ)) (s : Kernel ρ), Did bo as s calls h := by
  have hrest (rest : List HookCall) :
      ∀ (as : List (KernelAct ρ)) (s : Kernel ρ) (done : List HookCall)
      (h' : Hooks cap), Did bo as s done h' → (Hooks.system bo cap).run h' rest = some h →
        ∃ (as : List (KernelAct ρ)) (s : Kernel ρ), Did bo as s (done ++ rest) h := by
    induction rest with
    | nil =>
      intro as s done h' hdid hrun
      cases hrun
      exact ⟨as, s, (List.append_nil done).symm ▸ hdid⟩
    | cons c rest ih =>
      intro as s done h' hdid hrun
      obtain ⟨as', s', hdid'⟩ := hdid.call hcap c
      rw [List.append_cons]
      exact ih _ s' _ _ hdid' hrun
  exact hrest calls [] initial [] _ (did_initial bo cap) hrun

end Kernel

end AutomaticCache
