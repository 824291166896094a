import AutomaticCache.Bpf.HelperCalls

/-!
# Consuming a record

The two deletes of `cg_sock_opt` are meant for the entries it has answered from. The second takes
its key from the slot of the element that the first has released, and the slot may be another
element's by then. `Coherent` is what keeps an invocation on its own entries: the slot still holds
the cookie it looked up, and the port is not another socket's. Only an insertion into `map_ports`
can break it, by taking the slot or the port (`Tolerates`).
-/

namespace AutomaticCache

open Endian

variable {ρ : Type} {bo : ByteOrder}

/-- Before it answers, an invocation deletes nothing. -/
theorem SockOptPc.Unanswered.keeps {pc : SockOptPc ρ} (h : pc.Unanswered) :
    ¬ pc.DeletesPort ∧ ¬ pc.DeletesSock := by
  cases pc with
  | start | port _ | sock _ _ => exact ⟨not_false, not_false⟩
  | answered _ | portDeleted _ | done => exact absurd h not_false

namespace SockOptCall

/-- What one step of an invocation may do: delete the entry of its port, which is its cookie's, and
the entry of its cookie, each in its turn; and write its context when it answers. -/
structure Frame (bo : ByteOrder) (m m' : Maps ρ) (c c' : SockOptCall ρ) : Prop where
  ports : ∀ p, m'.ports.get p ≠ m.ports.get p →
    c.pc.DeletesPort ∧ p = c.srcPort bo ∧ m.ports.get p = some c.cookie
  socks : ∀ k, m'.socks.get k ≠ m.socks.get k → c.pc.DeletesSock ∧ k = c.cookie
  portGone : c.pc.DeletesPort → m'.ports.get (c.srcPort bo) = none
  sockGone : c.pc.DeletesSock → m'.socks.get c.cookie = none
  context : c.pc.Unanswered → (∀ r, c'.pc ≠ .answered r) → c'.ctx = c.arg

/-- The slot holds the cookie that was looked up, and the port is nobody else's. -/
structure Coherent (bo : ByteOrder) (m : Maps ρ) (c : SockOptCall ρ) : Prop where
  held : ∀ r, c.pc.ref = some r → m.ports.load r = c.cookie
  port : c.pc.HasPort → ∀ k, m.ports.get (c.srcPort bo) = some k → k = c.cookie
  context : c.pc.Unanswered → c.ctx = c.arg

/-- Writing `k` at port `p` in slot `r` leaves the invocation its entries. -/
def Tolerates (bo : ByteOrder) (c : SockOptCall ρ) (p : BitVec 16) (k : Cookie) (r : ρ) : Prop :=
  (c.pc.ref = some r → k = c.cookie) ∧ (c.pc.HasPort → c.srcPort bo = p → k = c.cookie)

instance [DecidableEq ρ] (c : SockOptCall ρ) (p : BitVec 16) (k : Cookie) (r : ρ) :
    Decidable (c.Tolerates bo p k r) := by unfold Tolerates; infer_instance

theorem coherent_start (m : Maps ρ) (ctx : BpfSockopt) (k : Cookie) :
    Coherent bo m ⟨ctx, ctx, k, .start⟩ :=
  ⟨fun _ h => (by cases h), fun h => absurd h not_false, fun _ => rfl⟩

/-! ## One step of an invocation -/

/-- Only `map_ports` matters to the others. -/
theorem Coherent.congr {m m' : Maps ρ} {c : SockOptCall ρ} (h : Coherent bo m c)
    (hp : m'.ports = m.ports) : Coherent bo m' c :=
  ⟨by rw [hp]; exact h.held, by rw [hp]; exact h.port, h.context⟩

theorem Coherent.deletePort {m : Maps ρ} {c : SockOptCall ρ} (h : Coherent bo m c)
    (p : BitVec 16) : Coherent bo { m with ports := m.ports.delete p } c where
  held := h.held
  port := fun hp k hk => by
    by_cases he : c.srcPort bo = p
    · rw [he, SlotMap.get_delete] at hk
      cases hk
    · rw [SlotMap.get_delete_of_ne he] at hk
      exact h.port hp k hk
  context := h.context

theorem Coherent.putPort [DecidableEq ρ] {m m' : Maps ρ} {c : SockOptCall ρ} {p : BitVec 16}
    {k : Cookie} {slot : Option ρ} (h : Coherent bo m c) (hput : m.putPort p k slot = some m')
    (ht : ∀ r, slot = some r → c.Tolerates bo p k r) : Coherent bo m' c := by
  cases slot with
  | none => exact h.congr (congrArg Maps.ports (Option.some.inj hput).symm)
  | some r =>
    unfold Maps.putPort at hput
    dsimp only at hput
    split_ifs at hput with ha
    obtain rfl := Option.some.inj hput
    obtain ⟨hslot, hport⟩ := ht r rfl
    refine ⟨fun r' hr' => ?_, fun hp k' hk' => ?_, h.context⟩
    · show (m.ports.update p k r ha).load r' = c.cookie
      by_cases he : r' = r
      · subst he
        rw [SlotMap.load_update ha, hslot hr']
      · rw [SlotMap.load_update_of_ne ha he, h.held r' hr']
    · have hk' : (m.ports.update p k r ha).get (c.srcPort bo) = some k' := hk'
      by_cases he : c.srcPort bo = p
      · rw [he, SlotMap.get_update ha, Option.some.injEq] at hk'
        rw [← hk', hport hp he]
      · rw [SlotMap.get_update_of_ne ha he] at hk'
        exact h.port hp k' hk'

/-- What one step of an invocation can do. -/
inductive Step (bo : ByteOrder) (m : Maps ρ) (c : SockOptCall ρ) :
    Maps ρ → SockOptCall ρ → Prop
  | giveUp (h : c.pc.Unanswered) : Step bo m c m { c with pc := .done }
  | port (r : ρ) (h : c.pc = .start) (hr : m.ports.index (c.srcPort bo) = some r) :
    Step bo m c m { c with cookie := m.ports.load r, pc := .port r }
  | sock (r sock : ρ) (h : c.pc = .port r) : Step bo m c m { c with pc := .sock r sock }
  | answer (r sock : ρ) (h : c.pc = .sock r sock) :
    Step bo m c m { c with ctx := answered bo (m.socks.load sock) c.ctx, pc := .answered r }
  | deletePort (r : ρ) (h : c.pc = .answered r) :
    Step bo m c { m with ports := m.ports.delete (c.srcPort bo) } { c with pc := .portDeleted r }
  | deleteSock (r : ρ) (h : c.pc = .portDeleted r) :
    Step bo m c { m with socks := m.socks.delete (m.ports.load r) } { c with pc := .done }

theorem step_of_next {m m' : Maps ρ} {c c' : SockOptCall ρ} (h : c.next bo m = some (m', c')) :
    Step bo m c m' c' := by
  unfold next at h
  cases hpc : c.pc with
  | start =>
    have hgive : Step bo m c m { c with pc := .done } := .giveUp (by rw [hpc]; trivial)
    rw [hpc] at h
    dsimp only at h
    split_ifs at h with hn hf hp
    · cases h; exact hgive
    · cases h; exact hgive
    · cases h; exact hgive
    · cases hi : m.ports.index (c.srcPort bo) with
      | none => rw [hi] at h; cases h; exact hgive
      | some r => rw [hi] at h; cases h; exact .port r hpc hi
  | port r =>
    have hgive : Step bo m c m { c with pc := .done } := .giveUp (by rw [hpc]; trivial)
    rw [hpc] at h
    dsimp only at h
    cases hi : m.socks.index (m.ports.load r) with
    | none => rw [hi] at h; cases h; exact hgive
    | some sock =>
      rw [hi] at h
      dsimp only at h
      split_ifs at h with hs
      · cases h; exact hgive
      · cases h; exact .sock r sock hpc
  | sock r sock => rw [hpc] at h; cases h; exact .answer r sock hpc
  | answered r => rw [hpc] at h; cases h; exact .deletePort r hpc
  | portDeleted r => rw [hpc] at h; cases h; exact .deleteSock r hpc
  | done => rw [hpc] at h; cases h

/-- A step of a coherent invocation leaves it coherent. -/
theorem Coherent.next {m m' : Maps ρ} {c c' : SockOptCall ρ} (h : Coherent bo m c)
    (hs : Step bo m c m' c') : Coherent bo m' c' := by
  cases hs with
  | giveUp hu => exact ⟨fun _ hr => (by cases hr), fun hp => absurd hp not_false,
      fun hp => absurd hp not_false⟩
  | port r hpc hr =>
    refine ⟨fun r' hr' => ?_, fun _ k hk => ?_, fun _ => h.context (by rw [hpc]; trivial)⟩
    · cases hr'; rfl
    · have hk : m.ports.get (c.srcPort bo) = some k := hk
      rw [SlotMap.get_of_index hr] at hk
      exact (Option.some.inj hk).symm
  | sock r sock hpc =>
    exact ⟨fun r' hr' => h.held r' (by rw [hpc]; exact hr'),
      fun _ => h.port (by rw [hpc]; trivial),
      fun _ => h.context (by rw [hpc]; trivial)⟩
  | answer r sock hpc =>
    exact ⟨fun r' hr' => h.held r' (by rw [hpc]; exact hr'),
      fun _ => h.port (by rw [hpc]; trivial),
      fun hu => absurd hu not_false⟩
  | deletePort r hpc =>
    exact ⟨fun r' hr' => h.held r' (by rw [hpc]; exact hr'), fun hp => absurd hp not_false,
      fun hu => absurd hu not_false⟩
  | deleteSock r hpc =>
    exact ⟨fun _ hr => (by cases hr), fun hp => absurd hp not_false,
      fun hu => absurd hu not_false⟩

/-- A step that deletes nothing stays in the frame, if it leaves the context alone or answers. -/
theorem Frame.of_keeps {m : Maps ρ} {c c' : SockOptCall ρ}
    (hkeep : ¬ c.pc.DeletesPort ∧ ¬ c.pc.DeletesSock)
    (hctx : c.pc.Unanswered → (∀ r, c'.pc ≠ .answered r) → c'.ctx = c.arg) :
    Frame bo m m c c' where
  ports := fun _ hp => absurd rfl hp
  socks := fun _ hk => absurd rfl hk
  portGone := fun hd => absurd hd hkeep.1
  sockGone := fun hd => absurd hd hkeep.2
  context := hctx

/-- A step of a coherent invocation touches its own entries only. -/
theorem Coherent.frame {m m' : Maps ρ} {c c' : SockOptCall ρ} (h : Coherent bo m c)
    (hs : Step bo m c m' c') : Frame bo m m' c c' := by
  cases hs with
  | giveUp hu => exact .of_keeps hu.keeps fun hu _ => h.context hu
  | port r hpc hr =>
    have hu : c.pc.Unanswered := by rw [hpc]; trivial
    exact .of_keeps hu.keeps fun hu _ => h.context hu
  | sock r sock hpc =>
    have hu : c.pc.Unanswered := by rw [hpc]; trivial
    exact .of_keeps hu.keeps fun hu _ => h.context hu
  | answer r sock hpc =>
    have hu : c.pc.Unanswered := by rw [hpc]; trivial
    exact .of_keeps hu.keeps fun _ hne => absurd rfl (hne r)
  | deletePort r hpc =>
    refine ⟨fun p hp => ?_, fun _ hk => absurd rfl hk, fun _ => SlotMap.get_delete _ _,
      by rw [hpc]; exact False.elim, by rw [hpc]; exact False.elim⟩
    have hsrc : p = c.srcPort bo := by
      by_contra hne
      exact hp (SlotMap.get_delete_of_ne hne)
    subst hsrc
    refine ⟨by rw [hpc]; trivial, rfl, ?_⟩
    cases hg : m.ports.get (c.srcPort bo) with
    | none => exact absurd ((SlotMap.get_delete _ _).trans hg.symm) hp
    | some k => rw [h.port (by rw [hpc]; trivial) k hg]
  | deleteSock r hpc =>
    have hk : m.ports.load r = c.cookie := h.held r (by rw [hpc]; rfl)
    rw [hk]
    refine ⟨fun _ hp => absurd rfl hp, fun k hne => ⟨by rw [hpc]; trivial, ?_⟩,
      by rw [hpc]; exact False.elim, fun _ =>
        SlotMap.get_delete _ _, by rw [hpc]; exact False.elim⟩
    by_contra hn
    exact hne (SlotMap.get_delete_of_ne hn)

/-- A step of an invocation leaves the others coherent. -/
theorem Coherent.other {m m' : Maps ρ} {c c' d : SockOptCall ρ} (h : Coherent bo m d)
    (hs : Step bo m c m' c') : Coherent bo m' d := by
  cases hs with
  | giveUp | port | sock | answer => exact h
  | deletePort r hpc => exact h.deletePort (c.srcPort bo)
  | deleteSock r hpc => exact h.congr rfl

end SockOptCall

/-! ## The other hooks -/

variable [DecidableEq ρ]

theorem Maps.ports_of_putSock {m m' : Maps ρ} {k : Cookie} {v : Socket} {slot : Option ρ}
    (h : m.putSock k v slot = some m') : m'.ports = m.ports := by
  cases slot with
  | none => exact congrArg Maps.ports (Option.some.inj h).symm
  | some r =>
    unfold Maps.putSock at h
    dsimp only at h
    split_ifs at h
    rw [← Option.some.inj h]

/-- `cg_connect4` does not write `map_ports`. -/
theorem Connect4Call.ports_of_next {m m' : Maps ρ} {slot : Option ρ} {c c' : Connect4Call}
    (h : c.next bo m slot = some (m', c')) : m'.ports = m.ports := by
  unfold next at h
  cases hpc : c.pc with
  | start =>
    simp only [hpc, lookupConfig, if_true] at h
    split_ifs at h <;> cases h <;> rfl
  | redirect =>
    simp only [hpc] at h
    obtain ⟨m'', hm, he⟩ := Option.map_eq_some_iff.1 h
    cases he
    exact Maps.ports_of_putSock hm
  | done => simp only [hpc] at h; cases h

/-- `cg_sock_ops` changes no map but by its one update. -/
theorem SockOpsCall.maps_of_next {m m' : Maps ρ} {slot : Option ρ} {c c' : SockOpsCall}
    (h : c.next m slot = some (m', c')) :
    m' = m ∨ c.pc = .known ∧ m.putPort c.srcPort c.cookie slot = some m' := by
  unfold next at h
  cases hpc : c.pc with
  | start =>
    simp only [hpc] at h
    split_ifs at h
    · cases h; exact Or.inl rfl
    · cases hi : m.socks.index c.cookie <;> rw [hi] at h <;> cases h <;> exact Or.inl rfl
    · cases h; exact Or.inl rfl
  | known =>
    simp only [hpc] at h
    obtain ⟨m'', hm, he⟩ := Option.map_eq_some_iff.1 h
    cases he
    exact Or.inr ⟨rfl, hm⟩
  | done => simp only [hpc] at h; cases h

/-! ## Every run -/

/-- The `cg_sock_ops` invocation that writes `map_ports` next. -/
def Invocation.writer : Invocation ρ → Option SockOpsCall
  | .sockOps c => if c.pc = .known then some c else none
  | .connect4 _ | .sockOpt _ => none

def Invocation.Tolerates (bo : ByteOrder) (p : BitVec 16) (k : Cookie) (r : ρ) :
    Invocation ρ → Prop
  | .sockOpt c => c.Tolerates bo p k r
  | .connect4 _ | .sockOps _ => True

instance (p : BitVec 16) (k : Cookie) (r : ρ) :
    ∀ inv : Invocation ρ, Decidable (inv.Tolerates bo p k r)
  | .sockOpt c => inferInstanceAs (Decidable (c.Tolerates bo p k r))
  | .connect4 _ | .sockOps _ => isTrue trivial

namespace Kernel

/-- An insertion into `map_ports` neither takes the slot that a running `cg_sock_opt` will read its
cookie through, nor writes the port that it is about to delete, unless it writes the same cookie. -/
def Undisturbed (bo : ByteOrder) (s : Kernel ρ) : KernelAct ρ → Prop
  | .advance i (some r) => ∀ inv ∈ s.calls[i]?, ∀ w ∈ inv.writer, ∀ other ∈ s.calls,
    other.Tolerates bo w.srcPort w.cookie r
  | _ => True

instance (s : Kernel ρ) : ∀ a, Decidable (s.Undisturbed bo a)
  | .advance _ (some _) => by unfold Undisturbed; infer_instance
  | .advance _ none | .configure _ | .connect4 _ _ _ | .sockOps _ _ | .sockOpt _ => isTrue trivial

/-- A step of a `cg_sock_opt` invocation keeps to its frame. -/
def FrameStep (bo : ByteOrder) (s : Kernel ρ) : KernelAct ρ → Prop
  | .advance i _ => ∀ c, s.calls[i]? = some (.sockOpt c) →
    ∀ m' c', c.next bo s.maps = some (m', c') → c.Frame bo s.maps m' c'
  | _ => True

/-- Every `cg_sock_opt` invocation is coherent. -/
def AllCoherent (bo : ByteOrder) (s : Kernel ρ) : Prop :=
  ∀ c, .sockOpt c ∈ s.calls → c.Coherent bo s.maps

variable {s s' : Kernel ρ}

omit [DecidableEq ρ] in
theorem AllCoherent.invoke {inv : Invocation ρ} (h : s.AllCoherent bo)
    (hinv : ∀ c, inv = .sockOpt c → c.Coherent bo s.maps) : (s.invoke inv).AllCoherent bo := by
  intro c hc
  rcases List.mem_append.1 hc with hc | hc
  · exact h c hc
  · exact hinv c (List.mem_singleton.1 hc).symm

/-- A step of an invocation leaves every coherent one coherent, if they tolerate its write. -/
theorem coherent_of_next {m m' : Maps ρ} {slot : Option ρ} {inv inv' : Invocation ρ}
    {c : SockOptCall ρ} (hc : c.Coherent bo m) (h : inv.next bo m slot = some (m', inv'))
    (hw : ∀ r, slot = some r → ∀ w ∈ inv.writer, c.Tolerates bo w.srcPort w.cookie r) :
    c.Coherent bo m' := by
  cases inv with
  | connect4 d =>
    obtain ⟨⟨m'', d'⟩, hd, he⟩ := Option.map_eq_some_iff.1 h
    cases he
    exact hc.congr (d.ports_of_next hd)
  | sockOps d =>
    obtain ⟨⟨m'', d'⟩, hd, he⟩ := Option.map_eq_some_iff.1 h
    cases he
    rcases d.maps_of_next hd with rfl | ⟨hpc, hput⟩
    · exact hc
    · exact hc.putPort hput fun r hr => hw r hr d (if_pos hpc)
  | sockOpt d =>
    obtain ⟨⟨m'', d'⟩, hd, he⟩ := Option.map_eq_some_iff.1 h
    cases he
    exact hc.other (SockOptCall.step_of_next hd)

/-- An invocation of `cg_sock_opt` after a step was one before it. -/
theorem sockOpt_of_next {m m' : Maps ρ} {slot : Option ρ} {inv : Invocation ρ}
    {c : SockOptCall ρ} (h : inv.next bo m slot = some (m', .sockOpt c)) :
    ∃ d, inv = .sockOpt d ∧ d.next bo m = some (m', c) := by
  cases inv with
  | connect4 d | sockOps d =>
    obtain ⟨r, -, he⟩ := Option.map_eq_some_iff.1 h
    cases he
  | sockOpt d =>
    obtain ⟨⟨m'', d'⟩, hd, he⟩ := Option.map_eq_some_iff.1 h
    cases he
    exact ⟨d, rfl, hd⟩

theorem allCoherent_step {a : KernelAct ρ} (hI : s.AllCoherent bo) (hok : s.Undisturbed bo a)
    (h : step bo s a = some s') : s'.AllCoherent bo := by
  cases a with
  | configure conf =>
    obtain rfl := Option.some.inj h
    exact fun c hc => (hI c hc).congr rfl
  | connect4 pidTgid cookie ctx =>
    obtain rfl := Option.some.inj h
    exact hI.invoke fun c hc => (by cases hc)
  | sockOps cookie ctx =>
    obtain rfl := Option.some.inj h
    exact hI.invoke fun c hc => (by cases hc)
  | sockOpt ctx =>
    obtain rfl := Option.some.inj h
    refine hI.invoke fun c hc => ?_
    cases hc
    exact SockOptCall.coherent_start s.maps ctx 0
  | advance i slot =>
    obtain ⟨inv, hi, h⟩ := Option.bind_eq_some_iff.1 h
    obtain ⟨⟨m', inv'⟩, hn, rfl⟩ := Option.map_eq_some_iff.1 h
    intro c hc
    rcases List.mem_or_eq_of_mem_set hc with hc | hc
    · refine coherent_of_next (hI c hc) hn fun r hr w hw => ?_
      subst hr
      exact hok inv hi w hw (.sockOpt c) hc
    · obtain rfl : inv' = .sockOpt c := hc.symm
      obtain ⟨d, rfl, hd⟩ := sockOpt_of_next hn
      exact (hI d (List.mem_of_getElem? hi)).next (SockOptCall.step_of_next hd)

/-- **Consuming a record touches only that record.** In every run of concurrent invocations in which
no insertion into `map_ports` disturbs a running query, a query that answers removes the entries of
its port and of its cookie and no other, and one that does not answer changes nothing. -/
theorem consume_frame (bo : ByteOrder) (as : List (KernelAct ρ))
    (hok : (system bo ρ).Steps (Undisturbed bo) initial as) :
    (system bo ρ).Steps (FrameStep bo) initial as := by
  refine Runs.System.steps_of_invariant (fun s a s' hI hok hs => allCoherent_step hI hok hs)
    (fun s a hI => ?_) (fun c hc => absurd hc List.not_mem_nil) hok
  cases a with
  | advance i slot =>
    intro c hc m' c' hn
    exact (hI c (List.mem_of_getElem? hc)).frame (SockOptCall.step_of_next hn)
  | _ => trivial

/-- Sockets 7 and 8 connect to `10.0.0.1:9000` and `10.0.0.2:9000`, and the first is established
from port 40000. -/
def twoSockets : List (KernelAct (Fin maxConnections)) :=
  [.configure ⟨18000, 4242⟩,
    .connect4 (1000 <<< 32) 7 (.ofConnect .little 0x0a000001 9000), .advance 0 none,
    .advance 0 (some 0),
    .connect4 (1001 <<< 32) 8 (.ofConnect .little 0x0a000002 9000), .advance 1 none,
    .advance 1 (some 1),
    .sockOps 7 (establishedCtx 40000), .advance 2 none, .advance 2 (some 0)]

/-- A query of port 40000. -/
def queryOf40000 : BpfSockopt where
  level := solIp
  optname := soOriginalDst
  optlen := sizeofSockaddrIn
  retval := -92
  skFamily := afInet
  skProtocol := ipprotoTcp
  skDstPort := htons .little 40000
  optval := ⟨0, 0, 0⟩
  optvalSize := sizeofSockaddrIn

/-- The query runs up to its last delete while socket 8 is established from port 40001, in slot
`slot` of `map_ports`. -/
def queryMeets (slot : Fin maxConnections) : List (KernelAct (Fin maxConnections)) :=
  [.sockOpt queryOf40000, .advance 3 none, .advance 3 none, .advance 3 none, .advance 3 none,
    .sockOps 8 (establishedCtx 40001), .advance 4 none, .advance 4 (some slot)]

/-- The other socket's port goes to another slot. -/
theorem consume_frame_otherSlot :
    (system .little (Fin maxConnections)).Steps (FrameStep .little) initial
      (twoSockets ++ queryMeets 1 ++ [.advance 3 none]) :=
  consume_frame .little _ (by decide)

/-- The other socket's port goes to the slot that the first delete has released: the second delete
then removes the other socket's record. -/
theorem consume_not_frame :
    ¬ ∀ as, (system .little (Fin maxConnections)).Steps (FrameStep .little) initial as := by
  intro h
  have hrun : ∃ s, (system .little (Fin maxConnections)).run initial
      (twoSockets ++ queryMeets 0) =
      some s ∧ s.maps.socks.get 8 = some ⟨0, 0, 0x0a000002, 9000⟩ ∧
      ∃ c, s.calls[3]? = some (.sockOpt c) ∧ c.cookie = 7 ∧
        (c.next .little s.maps).map (fun r => r.1.socks.get 8) = some none :=
    ⟨_, rfl, rfl, _, rfl, rfl, rfl⟩
  obtain ⟨s, hs, h8, c, hc, hk, hnext⟩ := hrun
  obtain ⟨⟨m', c'⟩, hn, hgone⟩ := Option.map_eq_some_iff.1 hnext
  have hlast := (h (twoSockets ++ queryMeets 0 ++ [.advance 3 none])).of_append hs
  have hframe := hlast.1 c hc m' c' hn
  have hne : m'.socks.get 8 ≠ s.maps.socks.get 8 := by rw [hgone, h8]; exact nofun
  have h7 := (hframe.socks 8 hne).2
  rw [hk] at h7
  exact absurd h7 (by decide)

end Kernel

end AutomaticCache
