import AutomaticCache.Bpf.Consume
import AutomaticCache.Bpf.Transactions

/-!
# Hooks that run at the same time

Invocations that overlap are as good as atomic, one after the other in the order of their ends, as
long as none touches an entry that another one, which is still running, has touched, unless both
only read (`Kernel.Apart`). No update may fail, and no slot may be reused under the eyes of a query
(`Kernel.Undisturbed`).
-/

namespace AutomaticCache

open Endian Runs

variable {ρ : Type} {bo : ByteOrder}

/-! ## Entries -/

/-- Nothing in any map. -/
def Loc.empty : Serial.Store Loc.Val
  | .config => .zero
  | .port _ | .sock _ => none

/-- The plain values of the maps. -/
def Maps.plain (m : Maps ρ) : Serial.Store Loc.Val
  | .config => m.config
  | .port p => m.ports.get p
  | .sock k => m.socks.get k

namespace Invocation

def isDone : Invocation ρ → Bool
  | .connect4 c => match c.pc with
    | .done => true
    | .start | .redirect => false
  | .sockOps c => match c.pc with
    | .done => true
    | .start | .known => false
  | .sockOpt c => match c.pc with
    | .done => true
    | .start | .port _ | .sock _ _ | .answered _ | .portDeleted _ => false

/-- The entries that a running invocation has looked up. -/
def reads (bo : ByteOrder) : Invocation ρ → List Loc
  | .connect4 c => match c.pc with
    | .redirect => [.config]
    | .start | .done => []
  | .sockOps c => match c.pc with
    | .known => [.sock c.cookie]
    | .start | .done => []
  | .sockOpt c => match c.pc with
    | .port _ => [.port (c.srcPort bo)]
    | .sock _ _ | .answered _ | .portDeleted _ => [.sock c.cookie, .port (c.srcPort bo)]
    | .start | .done => []

/-- The entries that a running invocation has changed. -/
def writes (bo : ByteOrder) : Invocation ρ → List Loc
  | .connect4 _ | .sockOps _ => []
  | .sockOpt c => match c.pc with
    | .portDeleted _ => [.port (c.srcPort bo)]
    | .start | .port _ | .sock _ _ | .answered _ | .done => []

/-- The entries that the next step looks up. -/
def willRead (bo : ByteOrder) : Invocation ρ → List Loc
  | .connect4 c => match c.pc with
    | .start | .redirect => [.config]
    | .done => []
  | .sockOps c => match c.pc with
    | .start => [.sock c.cookie]
    | .known | .done => []
  | .sockOpt c => match c.pc with
    | .start => if Queries c.ctx then [.port (c.srcPort bo)] else []
    | .port _ | .sock _ _ => [.sock c.cookie]
    | .answered _ | .portDeleted _ | .done => []

/-- The entries that the next step changes. -/
def willWrite (bo : ByteOrder) : Invocation ρ → List Loc
  | .connect4 c => match c.pc with
    | .redirect => [.sock c.cookie]
    | .start | .done => []
  | .sockOps c => match c.pc with
    | .known => [.port c.srcPort]
    | .start | .done => []
  | .sockOpt c => match c.pc with
    | .answered _ => [.port (c.srcPort bo)]
    | .portDeleted _ => [.sock c.cookie]
    | .start | .port _ | .sock _ _ | .done => []

/-- The next step meets nothing that the other one has done. -/
def Passes (bo : ByteOrder) (inv other : Invocation ρ) : Prop :=
  (∀ l ∈ inv.willRead bo, l ∉ other.writes bo) ∧
    ∀ l ∈ inv.willWrite bo, l ∉ other.reads bo ∧ l ∉ other.writes bo

instance (inv other : Invocation ρ) : Decidable (inv.Passes bo other) := by
  unfold Passes; infer_instance

/-- The next step is an update. -/
def updates : Invocation ρ → Bool
  | .connect4 c => match c.pc with
    | .redirect => true
    | .start | .done => false
  | .sockOps c => match c.pc with
    | .known => true
    | .start | .done => false
  | .sockOpt _ => false

/-- What is left of the hook. -/
def rest (bo : ByteOrder) : Invocation ρ → HookTx
  | .connect4 c => match c.pc with
    | .start => connects bo c.pidTgid c.cookie c.ctx
    | .redirect => redirects bo c.cookie c.ctx
    | .done => .ret (.connect4 c.ctx)
  | .sockOps c => match c.pc with
    | .start => establishes c.cookie c.ctx
    | .known => records c.srcPort c.cookie
    | .done => .ret .sockOps
  | .sockOpt c => match c.pc with
    | .start => queries bo c.ctx
    | .port _ => finds bo (c.srcPort bo) c.cookie c.ctx
    | .sock _ _ => answers bo (c.srcPort bo) c.cookie c.ctx
    | .answered _ => deletesPort (c.srcPort bo) c.cookie c.ctx
    | .portDeleted _ => deletesSock c.cookie c.ctx
    | .done => .ret (.sockOpt c.ctx)

variable (bo) in
theorem rest_of_isDone {inv : Invocation ρ} (h : inv.isDone = true) :
    ∃ o, inv.rest bo = .ret o := by
  cases inv with
  | connect4 c =>
    obtain ⟨pidTgid, cookie, ctx, pc⟩ := c
    cases pc with
    | done => exact ⟨_, rfl⟩
    | _ => cases h
  | sockOps c =>
    obtain ⟨cookie, ctx, pc⟩ := c
    cases pc with
    | done => exact ⟨_, rfl⟩
    | _ => cases h
  | sockOpt c =>
    obtain ⟨arg, ctx, cookie, pc⟩ := c
    cases pc with
    | done => exact ⟨_, rfl⟩
    | _ => cases h

/-- The only entries that a running invocation has changed are of ports. -/
theorem port_of_mem_writes {inv : Invocation ρ} {l : Loc} (h : l ∈ inv.writes bo) :
    ∃ p, l = .port p := by
  cases inv with
  | connect4 c | sockOps c => cases h
  | sockOpt c =>
    obtain ⟨arg, ctx, cookie, pc⟩ := c
    cases pc with
    | portDeleted r => exact ⟨_, List.mem_singleton.1 h⟩
    | _ => cases h

end Invocation

/-! ## The steps that are apart -/

namespace Kernel

/-- The step meets nothing that a running invocation has done. -/
def Apart (bo : ByteOrder) (s : Kernel ρ) : KernelAct ρ → Prop
  | .configure _ => ∀ inv ∈ s.calls, .config ∉ inv.reads bo
  | .advance i _ => ∀ inv ∈ s.calls[i]?, ∀ j < s.calls.length, j ≠ i →
      ∀ other ∈ s.calls[j]?, inv.Passes bo other
  | .connect4 _ _ _ | .sockOps _ _ | .sockOpt _ => True

instance (s : Kernel ρ) : ∀ a, Decidable (s.Apart bo a)
  | .configure _ => inferInstanceAs (Decidable (∀ inv ∈ s.calls, .config ∉ inv.reads bo))
  | .advance i _ => inferInstanceAs
      (Decidable (∀ inv ∈ s.calls[i]?, ∀ j < s.calls.length, j ≠ i →
      ∀ other ∈ s.calls[j]?, inv.Passes bo other))
  | .connect4 _ _ _ | .sockOps _ _ | .sockOpt _ => isTrue trivial

/-- An update finds a slot. -/
def Succeeds (s : Kernel ρ) : KernelAct ρ → Prop
  | .advance i none => ∀ inv ∈ s.calls[i]?, inv.updates = false
  | _ => True

instance (s : Kernel ρ) : ∀ a, Decidable (s.Succeeds a)
  | .advance i none => inferInstanceAs (Decidable (∀ inv ∈ s.calls[i]?, inv.updates = false))
  | .advance _ (some _) | .configure _ | .connect4 _ _ _ | .sockOps _ _ | .sockOpt _ =>
    isTrue trivial

end Kernel

/-! ## The plain values after a step -/

namespace Maps

variable {m m' : Maps ρ}

theorem plain_deletePort (m : Maps ρ) (p : BitVec 16) :
    Function.update m.plain (.port p) none = { m with ports := m.ports.delete p }.plain := by
  refine Function.update_eq_iff.2 ⟨(SlotMap.get_delete m.ports p).symm, fun l hl => ?_⟩
  cases l with
  | port p' => exact (SlotMap.get_delete_of_ne fun he => hl (congrArg Loc.port he)).symm
  | _ => rfl

theorem plain_deleteSock (m : Maps ρ) (k : Cookie) :
    Function.update m.plain (.sock k) none = { m with socks := m.socks.delete k }.plain := by
  refine Function.update_eq_iff.2 ⟨(SlotMap.get_delete m.socks k).symm, fun l hl => ?_⟩
  cases l with
  | sock k' => exact (SlotMap.get_delete_of_ne fun he => hl (congrArg Loc.sock he)).symm
  | _ => rfl

variable [DecidableEq ρ]

theorem putSock_some {k : Cookie} {v : Socket} {r : ρ} (h : m.putSock k v (some r) = some m') :
    ∃ ha, m' = { m with socks := m.socks.update k v r ha } := by
  unfold putSock at h
  dsimp only at h
  split_ifs at h with ha
  exact ⟨ha, (Option.some.inj h).symm⟩

theorem plain_putSock {k : Cookie} {v : Socket} {r : ρ} (h : m.putSock k v (some r) = some m') :
    Function.update m.plain (.sock k) (some v) = m'.plain := by
  obtain ⟨ha, rfl⟩ := putSock_some h
  refine Function.update_eq_iff.2 ⟨(SlotMap.get_update ha).symm, fun l hl => ?_⟩
  cases l with
  | sock k' => exact (SlotMap.get_update_of_ne ha fun he => hl (congrArg Loc.sock he)).symm
  | _ => rfl

theorem plain_putPort {p : BitVec 16} {k : Cookie} {r : ρ} (h : m.putPort p k (some r) = some m') :
    Function.update m.plain (.port p) (some k) = m'.plain := by
  unfold putPort at h
  dsimp only at h
  split_ifs at h with ha
  obtain rfl := Option.some.inj h
  refine Function.update_eq_iff.2 ⟨(SlotMap.get_update ha).symm, fun l hl => ?_⟩
  cases l with
  | port p' => exact (SlotMap.get_update_of_ne ha fun he => hl (congrArg Loc.port he)).symm
  | _ => rfl

theorem index_of_putSock {k k' : Cookie} {v : Socket} {slot : Option ρ}
    (h : m.putSock k v slot = some m') (hk : k' ≠ k) : m'.socks.index k' = m.socks.index k' := by
  cases slot with
  | none => rw [← Option.some.inj h]
  | some r =>
    obtain ⟨ha, rfl⟩ := putSock_some h
    exact Function.update_of_ne hk _ _

theorem socks_of_putPort {p : BitVec 16} {k : Cookie} {slot : Option ρ}
    (h : m.putPort p k slot = some m') :
    m'.socks = m.socks := by
  cases slot with
  | none => rw [← Option.some.inj h]
  | some r =>
    unfold putPort at h
    dsimp only at h
    split_ifs at h with ha
    rw [← Option.some.inj h]

end Maps

/-! ## A step of an invocation -/

/-- A transaction that runs hooks. -/
abbrev HookRun := Serial.Running HookCall Loc Loc.Val Outcome

namespace Invocation

/-- The transaction is where the invocation is, and has touched what it has. -/
structure Stands (bo : ByteOrder) (inv : Invocation ρ) (r : HookRun) : Prop where
  rest : r.rest = inv.rest bo
  reads : inv.isDone = false → r.reads ⊆ inv.reads bo
  writes : inv.isDone = false → r.writes ⊆ inv.writes bo

theorem Stands.done {inv : Invocation ρ} {r : HookRun} (hrest : r.rest = inv.rest bo)
    (hdone : inv.isDone = true) : inv.Stands bo r :=
  ⟨hrest, fun h => absurd (hdone.symm.trans h) nofun,
    fun h => absurd (hdone.symm.trans h) nofun⟩

/-- The access is one of the next step. -/
def Makes (bo : ByteOrder) (inv : Invocation ρ) : Serial.Access Loc Loc.Val → Prop
  | .read l => l ∈ inv.willRead bo
  | .write l _ => l ∈ inv.willWrite bo

/-- The slot of the record that a query is to read is still that of its cookie. -/
def Held (m : Maps ρ) : Invocation ρ → Prop
  | .sockOpt c => ∀ r sock, c.pc = .sock r sock → m.socks.index c.cookie = some sock
  | .connect4 _ | .sockOps _ => True

/-- The accesses of one step, and where they lead. -/
def Goes (bo : ByteOrder) (inv : Invocation ρ) (m : Maps ρ) (r : HookRun) (m' : Maps ρ)
    (inv' : Invocation ρ) : Prop :=
  ∃ as r', Serial.Goes m.plain r as m'.plain r' ∧ (∀ a ∈ as, inv.Makes bo a) ∧
    inv'.Stands bo r'

variable {inv inv' : Invocation ρ} {m m' : Maps ρ} {r : HookRun}

theorem Goes.none (h : inv'.Stands bo r) : inv.Goes bo m r m inv' :=
  ⟨[], r, .stay _ _, fun _ ha => absurd ha List.not_mem_nil, h⟩

theorem Goes.one {a : Serial.Access Loc Loc.Val} {next : a.Ans → HookTx} {ans : a.Ans}
    (hrest : r.rest = .op a next) (hans : Serial.access a m.plain = (ans, m'.plain))
    (ha : inv.Makes bo a) (h : inv'.Stands bo (r.after a (next ans))) :
    inv.Goes bo m r m' inv' := by
  have hg : Serial.Goes m.plain r [a] (Serial.access a m.plain).2 _ := .access hrest (.stay _ _)
  rw [hans] at hg
  exact ⟨[a], _, hg, fun a' ha' => by rwa [List.mem_singleton.1 ha'], h⟩

/-- A lookup finds what the plain value is. -/
theorem Goes.lookup {l : Loc} {v : l.Val} {next : l.Val → HookTx}
    (hrest : r.rest = .op (.read l) next) (hv : m.plain l = v) (hl : l ∈ inv.willRead bo)
    (h : inv'.Stands bo (r.after (.read l) (next v))) :
    inv.Goes bo m r m inv' := .one hrest (Prod.ext hv rfl) hl h

theorem Goes.change {l : Loc} {v : l.Val} {next : Unit → HookTx}
    (hrest : r.rest = .op (.write l v) next) (hv : Function.update m.plain l v = m'.plain)
    (hl : l ∈ inv.willWrite bo) (h : inv'.Stands bo (r.after (.write l v) (next ()))) :
    inv.Goes bo m r m' inv' :=
  .one hrest (Prod.ext rfl hv) hl h

variable [DecidableEq ρ] {slot : Option ρ}

theorem goes_connect4 {c c' : Connect4Call} (h : c.next bo m slot = some (m', c'))
    (hslot : c.pc = .redirect → slot ≠ none)
    (hr : (Invocation.connect4 c : Invocation ρ).Stands bo r) :
    (Invocation.connect4 c).Goes bo m r m' (.connect4 c') := by
  obtain ⟨pidTgid, cookie, ctx, pc⟩ := c
  unfold Connect4Call.next at h
  cases pc with
  | start =>
    have hrest : r.rest = connects bo pidTgid cookie ctx := hr.rest
    simp only [lookupConfig, if_true] at h
    unfold connects at hrest
    split_ifs at h hrest with hf hp hport hpid
    · cases h; exact .none (.done hrest rfl)
    · cases h; exact .none (.done hrest rfl)
    · cases h; exact .none (.done hrest rfl)
    · cases h
      exact .lookup hrest rfl (List.mem_singleton_self _) (.done (if_pos hpid) rfl)
    · cases h
      refine .lookup hrest rfl (List.mem_singleton_self _)
        ⟨if_neg hpid, fun _ => ?_, fun _ => hr.writes rfl⟩
      exact List.cons_subset_cons _ (hr.reads rfl)
  | redirect =>
    obtain ⟨m₁, hput, he⟩ := Option.map_eq_some_iff.1 h
    cases he
    cases slot with
    | none => exact absurd rfl (hslot rfl)
    | some r₁ =>
      have hg :
          Serial.Goes m.plain r [.write (.sock cookie) (some (recordOf bo ctx)), .read .config]
        (Function.update m.plain (.sock cookie) (some (recordOf bo ctx))) _ :=
        .access hr.rest (.access rfl (.stay _ _))
      rw [Maps.plain_putSock hput] at hg
      refine ⟨_, _, hg, fun a ha => ?_, .done ?_ rfl⟩
      · rcases List.mem_pair.1 ha with rfl | rfl
        · exact List.mem_singleton_self _
        · exact List.mem_singleton_self _
      · obtain ⟨ha, rfl⟩ := Maps.putSock_some hput
        rfl
  | done => cases h

theorem goes_sockOps {c c' : SockOpsCall} (h : c.next m slot = some (m', c'))
    (hslot : c.pc = .known → slot ≠ none)
    (hr : (Invocation.sockOps c : Invocation ρ).Stands bo r) :
    (Invocation.sockOps c).Goes bo m r m' (.sockOps c') := by
  obtain ⟨cookie, ctx, pc⟩ := c
  unfold SockOpsCall.next at h
  cases pc with
  | start =>
    have hrest : r.rest = establishes cookie ctx := hr.rest
    dsimp only at h
    unfold establishes at hrest
    split_ifs at h hrest with hf hop
    · cases h; exact .none (.done hrest rfl)
    · cases hi : m.socks.index cookie with
      | none =>
        rw [hi] at h
        cases h
        exact .lookup hrest (SlotMap.get_eq_none.2 hi) (List.mem_singleton_self _) (.done rfl rfl)
      | some r₁ =>
        rw [hi] at h
        cases h
        exact .lookup hrest (SlotMap.get_of_index hi) (List.mem_singleton_self _)
          ⟨rfl, fun _ => List.cons_subset_cons _ (hr.reads rfl), fun _ => hr.writes rfl⟩
    · cases h; exact .none (.done hrest rfl)
  | known =>
    obtain ⟨m₁, hput, he⟩ := Option.map_eq_some_iff.1 h
    cases he
    cases slot with
    | none => exact absurd rfl (hslot rfl)
    | some r₁ =>
      exact .change hr.rest (Maps.plain_putPort hput) (List.mem_singleton_self _) (.done rfl rfl)
  | done => cases h

omit [DecidableEq ρ] in
theorem goes_sockOpt {c c' : SockOptCall ρ} (h : c.next bo m = some (m', c'))
    (hc : c.Coherent bo m) (hheld : (Invocation.sockOpt c).Held m)
    (hr : (Invocation.sockOpt c).Stands bo r) :
    (Invocation.sockOpt c).Goes bo m r m' (.sockOpt c') := by
  obtain ⟨arg, ctx, cookie, pc⟩ := c
  unfold SockOptCall.next SockOptCall.srcPort at h
  cases pc with
  | start =>
    obtain rfl : ctx = arg := hc.context trivial
    have hrest : r.rest = queries bo ctx := hr.rest
    dsimp only at h
    unfold queries at hrest
    split_ifs at h hrest with hn hf hp
    · cases h; exact .none (.done hrest rfl)
    · cases h; exact .none (.done hrest rfl)
    · cases h; exact .none (.done hrest rfl)
    have hmakes : Loc.port (ntohs bo ctx.skDstPort) ∈
        (Invocation.sockOpt (ρ := ρ) ⟨ctx, ctx, cookie, .start⟩).willRead bo := by
      show _ ∈ if Queries ctx then _ else _
      rw [if_pos ⟨not_not.1 hn, not_not.1 hf, not_not.1 hp⟩]
      exact List.mem_singleton_self _
    cases hi : m.ports.index (ntohs bo ctx.skDstPort) with
    | none =>
      rw [hi] at h
      cases h
      exact .lookup hrest (SlotMap.get_eq_none.2 hi) hmakes (.done rfl rfl)
    | some r₁ =>
      rw [hi] at h
      cases h
      exact .lookup hrest (SlotMap.get_of_index hi) hmakes
        ⟨rfl, fun _ => List.cons_subset_cons _ (hr.reads rfl), fun _ => hr.writes rfl⟩
  | port r₁ =>
    have hrest : r.rest = finds bo (ntohs bo arg.skDstPort) cookie ctx := hr.rest
    have hcookie : m.ports.load r₁ = cookie := hc.held r₁ rfl
    dsimp only at h
    rw [hcookie] at h
    cases hi : m.socks.index cookie with
    | none =>
      rw [hi] at h
      cases h
      exact .lookup hrest (SlotMap.get_eq_none.2 hi) (List.mem_singleton_self _) (.done rfl rfl)
    | some sock =>
      rw [hi] at h
      dsimp only at h
      split_ifs at h with hsize
      · cases h
        exact .lookup hrest (SlotMap.get_of_index hi) (List.mem_singleton_self _)
          (.done (if_pos hsize) rfl)
      · cases h
        exact .lookup hrest (SlotMap.get_of_index hi) (List.mem_singleton_self _)
          ⟨if_neg hsize, fun _ => List.cons_subset_cons _ (hr.reads rfl),
            fun _ => hr.writes rfl⟩
  | sock r₁ sock =>
    have hi : m.socks.index cookie = some sock := hheld r₁ sock rfl
    cases h
    exact .lookup hr.rest (SlotMap.get_of_index hi) (List.mem_singleton_self _)
      ⟨rfl, fun _ => List.cons_subset.2 ⟨List.mem_cons_self .., hr.reads rfl⟩,
        fun _ => hr.writes rfl⟩
  | answered r₁ =>
    cases h
    exact .change hr.rest (Maps.plain_deletePort m _) (List.mem_singleton_self _)
      ⟨rfl, fun _ => hr.reads rfl, fun _ => List.cons_subset_cons _ (hr.writes rfl)⟩
  | portDeleted r₁ =>
    have hcookie : m.ports.load r₁ = cookie := hc.held r₁ rfl
    dsimp only at h
    rw [hcookie] at h
    cases h
    exact .change hr.rest (Maps.plain_deleteSock m cookie)
      (List.mem_singleton_self _) (.done rfl rfl)
  | done => cases h

/-- The slot of a record stays where the step does not write the record. -/
theorem index_of_next (h : inv.next bo m slot = some (m', inv'))
    (hc : ∀ c, inv = .sockOpt c → c.Coherent bo m) {k : Cookie}
    (hk : .sock k ∉ inv.willWrite bo) :
    m'.socks.index k = m.socks.index k := by
  cases inv with
  | connect4 c =>
    obtain ⟨⟨m₁, c'⟩, hn, he⟩ := Option.map_eq_some_iff.1 h
    cases he
    obtain ⟨pidTgid, cookie, ctx, pc⟩ := c
    unfold Connect4Call.next at hn
    cases pc with
    | start =>
      simp only [lookupConfig, if_true] at hn
      split_ifs at hn <;> cases hn <;> rfl
    | redirect =>
      obtain ⟨m₂, hput, he⟩ := Option.map_eq_some_iff.1 hn
      cases he
      have hne : k ≠ cookie := fun he => hk (List.mem_singleton.2 (congrArg Loc.sock he))
      exact Maps.index_of_putSock hput hne
    | done => cases hn
  | sockOps c =>
    obtain ⟨⟨m₁, c'⟩, hn, he⟩ := Option.map_eq_some_iff.1 h
    cases he
    rcases c.maps_of_next hn with rfl | ⟨-, hput⟩
    · rfl
    · rw [Maps.socks_of_putPort hput]
  | sockOpt c =>
    obtain ⟨⟨m₁, c'⟩, hn, he⟩ := Option.map_eq_some_iff.1 h
    cases he
    have hload := (hc c rfl).held
    cases SockOptCall.step_of_next hn with
    | giveUp | port | sock | answer | deletePort => rfl
    | deleteSock r hpc =>
      obtain ⟨arg, ctx, cookie, pc⟩ := c
      obtain rfl : pc = .portDeleted r := hpc
      have hne : k ≠ cookie := fun he => hk (List.mem_singleton.2 (congrArg Loc.sock he))
      show Function.update m.socks.index (m.ports.load r) none k = _
      rw [hload r rfl]
      exact Function.update_of_ne hne _ _

/-- What is to be answered from is still there after a step of another invocation. -/
theorem Held.other {other : Invocation ρ} (hheld : other.Held m)
    (h : inv.next bo m slot = some (m', inv')) (hc : ∀ c, inv = .sockOpt c → c.Coherent bo m)
    (hpass : inv.Passes bo other) : other.Held m' := by
  cases other with
  | connect4 d | sockOps d => trivial
  | sockOpt d =>
    intro r sock hd
    rw [index_of_next h hc fun hw => (hpass.2 _ hw).1 ?_]
    · exact hheld r sock hd
    · simp only [reads, hd, List.mem_cons, true_or]

/-- A query that has found the record may rely on it. -/
theorem Held.next (h : inv.next bo m slot = some (m', inv'))
    (hc : ∀ c, inv = .sockOpt c → c.Coherent bo m) : inv'.Held m' := by
  cases inv' with
  | connect4 d | sockOps d => trivial
  | sockOpt d =>
    obtain ⟨c, rfl, hn⟩ := Kernel.sockOpt_of_next h
    intro r sock hd
    cases SockOptCall.step_of_next hn with
    | giveUp | port | answer | deletePort | deleteSock => cases hd
    | sock r₁ sock₁ hpc =>
      cases hd
      have hload := (hc c rfl).held r (by rw [hpc]; rfl)
      unfold SockOptCall.next at hn
      rw [hpc] at hn
      dsimp only at hn
      rw [hload] at hn
      cases hi : m.socks.index c.cookie with
      | none =>
        rw [hi] at hn
        cases hn
      | some sock₂ =>
        rw [hi] at hn
        dsimp only at hn
        split_ifs at hn with hsize
        · cases hn
        · have hpc' := congrArg (fun r => r.2.pc) (Option.some.inj hn)
          exact congrArg some (SockOptPc.sock.inj hpc').2

theorem not_isDone_of_next (h : inv.next bo m slot = some (m', inv')) : inv.isDone = false := by
  cases inv with
  | connect4 c =>
    obtain ⟨⟨m₁, c'⟩, hn, -⟩ := Option.map_eq_some_iff.1 h
    obtain ⟨pidTgid, cookie, ctx, pc⟩ := c
    cases pc with
    | done => cases hn
    | _ => rfl
  | sockOps c =>
    obtain ⟨⟨m₁, c'⟩, hn, -⟩ := Option.map_eq_some_iff.1 h
    obtain ⟨cookie, ctx, pc⟩ := c
    cases pc with
    | done => cases hn
    | _ => rfl
  | sockOpt c =>
    obtain ⟨⟨m₁, c'⟩, hn, -⟩ := Option.map_eq_some_iff.1 h
    obtain ⟨arg, ctx, cookie, pc⟩ := c
    cases pc with
    | done => cases hn
    | _ => rfl

/-- A step of an invocation is some accesses of its transaction. -/
theorem goes_of_next (h : inv.next bo m slot = some (m', inv'))
    (hslot : slot = none → inv.updates = false) (hc : ∀ c, inv = .sockOpt c → c.Coherent bo m)
    (hheld : inv.Held m) (hr : inv.Stands bo r) : inv.Goes bo m r m' inv' := by
  cases inv with
  | connect4 c =>
    obtain ⟨⟨m₁, c'⟩, hn, he⟩ := Option.map_eq_some_iff.1 h
    cases he
    refine goes_connect4 hn (fun hpc he => ?_) hr
    have hupd := hslot he
    rw [updates, hpc] at hupd
    cases hupd
  | sockOps c =>
    obtain ⟨⟨m₁, c'⟩, hn, he⟩ := Option.map_eq_some_iff.1 h
    cases he
    refine goes_sockOps hn (fun hpc he => ?_) hr
    have hupd := hslot he
    rw [updates, hpc] at hupd
    cases hupd
  | sockOpt c =>
    obtain ⟨⟨m₁, c'⟩, hn, he⟩ := Option.map_eq_some_iff.1 h
    cases he
    exact goes_sockOpt hn (hc c rfl) hheld hr

omit [DecidableEq ρ] in
/-- What passes another invocation leaves its transaction alone. -/
theorem Makes.leaves {other : Invocation ρ} {a : Serial.Access Loc Loc.Val} (ha : inv.Makes bo a)
    (hpass : inv.Passes bo other) (hr : other.Stands bo r) (hrun : other.isDone = false) :
    r.Leaves a := by
  cases a with
  | read l => exact fun hl => hpass.1 l ha (hr.writes hrun hl)
  | write l v =>
    exact ⟨fun hl => (hpass.2 l ha).1 (hr.reads hrun hl),
      fun hl => (hpass.2 l ha).2 (hr.writes hrun hl)⟩

end Invocation

/-! ## The runs -/

/-- The hook that is invoked. -/
def KernelAct.call : KernelAct ρ → Option HookCall
  | .connect4 pidTgid cookie ctx => some (.connect4 pidTgid cookie ctx)
  | .sockOps cookie ctx => some (.sockOps cookie ctx)
  | .sockOpt ctx => some (.sockOpt ctx)
  | .configure _ | .advance _ _ => none

/-- What the loader writes. -/
def KernelAct.configuration : KernelAct ρ → Option HookCall
  | .configure conf => some (.configure conf)
  | .connect4 _ _ _ | .sockOps _ _ | .sockOpt _ | .advance _ _ => none

namespace Kernel

/-- The hooks that were invoked, in that order. -/
def invoked (as : List (KernelAct ρ)) : List HookCall := as.filterMap KernelAct.call

abbrev HookState := Serial.State HookCall Loc Loc.Val Outcome

/-- The hooks as transactions, on empty maps. -/
abbrev transactions (bo : ByteOrder) : System HookState (Serial.Act HookCall) :=
  Serial.system (HookCall.body bo) Loc.empty

/-- The transactions are where the invocations are. -/
structure Follows (bo : ByteOrder) (s : Kernel ρ) (t : HookState) : Prop where
  store : t.store = s.maps.plain
  length : t.txs.length = s.calls.length
  stands : ∀ (i : ℕ) (inv : Invocation ρ) (r : HookRun), s.calls[i]? = some inv →
    t.txs[i]? = some r →
    inv.Stands bo r ∧ r.ended = inv.isDone
  coherent : s.AllCoherent bo
  held : ∀ inv ∈ s.calls, inv.Held s.maps

variable {s s' : Kernel ρ} {t : HookState} {i : ℕ} {inv inv' : Invocation ρ} {m' : Maps ρ}
  {slot : Option ρ} {r r' : HookRun}

/-- Each transaction belongs to an invocation. -/
theorem Follows.exists_call (h : s.Follows bo t) (hr : t.txs[i]? = some r) :
    ∃ inv, s.calls[i]? = some inv := by
  have hlt := (List.getElem?_eq_some_iff.1 hr).1
  rw [h.length] at hlt
  exact ⟨_, List.getElem?_eq_getElem hlt⟩

theorem Follows.exists_tx (h : s.Follows bo t) (hi : s.calls[i]? = some inv) :
    ∃ r, t.txs[i]? = some r := by
  have hlt := (List.getElem?_eq_some_iff.1 hi).1
  rw [← h.length] at hlt
  exact ⟨_, List.getElem?_eq_getElem hlt⟩

theorem Follows.invoke (h : s.Follows bo t) (c : HookCall) (hrest : inv.rest bo = c.body bo)
    (hrun : inv.isDone = false) (hcoherent : (s.invoke inv).AllCoherent bo)
    (hheld : inv.Held s.maps) :
    (s.invoke inv).Follows bo { t with txs := t.txs ++ [.started (HookCall.body bo) c] } where
  store := h.store
  length := by
    show (_ ++ [_]).length = (_ ++ [_]).length
    rw [List.length_append, List.length_append, h.length]
    rfl
  stands := fun j inv₁ r hj hr => by
    rcases getElem?_concat_cases hj with hold | ⟨rfl, rfl⟩
    · rcases getElem?_concat_cases hr with hold' | ⟨rfl, -⟩
      · exact h.stands j inv₁ r hold hold'
      · rw [h.length, List.getElem?_eq_none le_rfl] at hold
        cases hold
    · rw [← h.length, List.getElem?_concat_length] at hr
      obtain rfl := Option.some.inj hr
      exact ⟨⟨hrest.symm, fun _ => List.nil_subset _, fun _ => List.nil_subset _⟩,
        hrun.symm⟩
  coherent := hcoherent
  held := fun inv₁ hinv => by
    rcases List.mem_append.1 hinv with hinv | hinv
    · exact h.held inv₁ hinv
    · rwa [List.mem_singleton.1 hinv]

variable [DecidableEq ρ]

/-- Whose end the step is: of an invocation, or the loader's write. -/
def ending (bo : ByteOrder) (s : Kernel ρ) : KernelAct ρ → List (Option ℕ)
  | .configure _ => [none]
  | .advance i slot =>
    match s.calls[i]?.bind fun inv => inv.next bo s.maps slot with
    | some r => if r.2.isDone then [some i] else []
    | none => []
  | .connect4 _ _ _ | .sockOps _ _ | .sockOpt _ => []

theorem Follows.set (h : s.Follows bo t) (hi : s.calls[i]? = some inv)
    (hn : inv.next bo s.maps slot = some (m', inv'))
    (hpass : ∀ j other, s.calls[j]? = some other → j ≠ i → inv.Passes bo other)
    (hcoherent : AllCoherent bo ⟨m', s.calls.set i inv'⟩) (hr : inv'.Stands bo r)
    (hended : r.ended = inv'.isDone) (es : List (Serial.Entry HookCall Outcome)) :
    Follows bo ⟨m', s.calls.set i inv'⟩ ⟨m'.plain, t.txs.set i r, es⟩ where
  store := rfl
  length := by
    show (t.txs.set i r).length = (s.calls.set i inv').length
    rw [List.length_set, List.length_set, h.length]
  stands := fun j inv₁ r₁ hj hr₁ => by
    rcases getElem?_set_cases hj with ⟨rfl, rfl⟩ | ⟨hji, hold⟩
    · rcases getElem?_set_cases hr₁ with ⟨-, rfl⟩ | ⟨hne, -⟩
      · exact ⟨hr, hended⟩
      · exact absurd rfl hne
    · exact h.stands j inv₁ r₁ hold ((List.getElem?_set_ne (Ne.symm hji)).symm.trans hr₁)
  coherent := hcoherent
  held := fun inv₁ hinv => by
    have hc : ∀ c, inv = .sockOpt c → c.Coherent bo s.maps :=
      fun c hc => h.coherent c (hc ▸ List.mem_of_getElem? hi)
    obtain ⟨j, hj⟩ := List.getElem?_of_mem hinv
    rcases getElem?_set_cases hj with ⟨-, rfl⟩ | ⟨hji, hold⟩
    · exact .next hn hc
    · exact (h.held inv₁ (List.mem_of_getElem? hold)).other hn hc (hpass j inv₁ hold hji)

/-- What the transactions do while the hooks make the step. -/
structure Answers (bo : ByteOrder) (s : Kernel ρ) (a : KernelAct ρ) (s' : Kernel ρ)
    (t t' : HookState) :
    Prop where
  run : ∃ bs, (transactions bo).run t bs = some t' ∧
    (transactions bo).Steps
      (Serial.Apart (HookCall.body bo)) t bs
  follows : s'.Follows bo t'
  calls : t'.txs.map Serial.Running.call = t.txs.map Serial.Running.call ++ a.call.toList
  numbers : t'.ended.map Serial.Entry.number = t.ended.map Serial.Entry.number ++ s.ending bo a
  configured : (t'.ended.filter fun e => e.number.isNone).map Serial.Entry.call =
    (t.ended.filter fun e => e.number.isNone).map Serial.Entry.call ++ a.configuration.toList

theorem Follows.start (h : s.Follows bo t) {a : KernelAct ρ} {c : HookCall}
    (hcall : a.call = some c) (hrest : inv.rest bo = c.body bo) (hrun : inv.isDone = false)
    (hcoherent : (s.invoke inv).AllCoherent bo) (hheld : inv.Held s.maps)
    (hending : s.ending bo a = []) (hconf : a.configuration = none) :
    ∃ t', Answers bo s a (s.invoke inv) t t' :=
  ⟨_, ⟨[.start c], rfl, trivial, fun _ _ => trivial⟩, h.invoke c hrest hrun hcoherent hheld,
    by rw [List.map_append, hcall]; rfl, by rw [hending, List.append_nil],
    by rw [hconf, Option.toList_none, List.append_nil]⟩

theorem Follows.configure (h : s.Follows bo t) (conf : Config)
    (hapart : ∀ inv ∈ s.calls, .config ∉ inv.reads bo) :
    ∃ t', Answers bo s (.configure conf)
      { s with maps := { s.maps with config := conf } } t t' := by
  have hleaves : ∀ r ∈ t.txs, r.ended = false → r.Leaves (.write .config conf) := by
    intro r hr hrun
    obtain ⟨j, hj⟩ := List.getElem?_of_mem hr
    obtain ⟨inv, hi⟩ := h.exists_call hj
    obtain ⟨hstands, hended⟩ := h.stands j inv r hi hj
    have hrunning := hended.symm.trans hrun
    refine ⟨fun hl => hapart inv (List.mem_of_getElem? hi) (hstands.reads hrunning hl),
      fun hl => ?_⟩
    obtain ⟨p, hp⟩ := Invocation.port_of_mem_writes (hstands.writes hrunning hl)
    cases hp
  have hstore : Function.update t.store .config conf = { s.maps with config := conf }.plain := by
    rw [h.store]
    refine Function.update_eq_iff.2 ⟨rfl, fun l hl => ?_⟩
    cases l with
    | config => exact absurd rfl hl
    | _ => rfl
  refine ⟨_, ⟨[.write (.configure conf)], rfl, ?_, fun _ _ => trivial⟩,
    ⟨hstore, h.length, h.stands, fun c hc => (h.coherent c hc).congr rfl, fun inv hinv => ?_⟩,
    (List.append_nil _).symm, List.map_append, ?_⟩
  · intro a next hbody r hr hrun
    cases hbody
    exact hleaves r hr hrun
  · have hheld := h.held inv hinv
    cases inv <;> exact hheld
  · rw [List.filter_append, List.map_append]
    rfl

theorem Follows.advance (h : s.Follows bo t) (hi : s.calls[i]? = some inv)
    (hn : inv.next bo s.maps slot = some (m', inv')) (hslot : slot = none → inv.updates = false)
    (hpass : ∀ j other, s.calls[j]? = some other → j ≠ i → inv.Passes bo other)
    (hcoherent : AllCoherent bo ⟨m', s.calls.set i inv'⟩) :
    ∃ t', Answers bo s (.advance i slot) ⟨m', s.calls.set i inv'⟩ t t' := by
  obtain ⟨r, hr⟩ := h.exists_tx hi
  obtain ⟨hstands, hended⟩ := h.stands i inv r hi hr
  have hrun : r.ended = false := hended.trans (Invocation.not_isDone_of_next hn)
  obtain ⟨as, r', hg, hmakes, hstands'⟩ := Invocation.goes_of_next hn hslot
    (fun c hc => h.coherent c (hc ▸ List.mem_of_getElem? hi))
      (h.held inv (List.mem_of_getElem? hi)) hstands
  rw [← h.store] at hg
  have hothers : ∀ a ∈ as, t.OthersLeave i a := by
    intro a ha j r₁ hj hji hrun₁
    obtain ⟨other, hother⟩ := h.exists_call hj
    obtain ⟨hstands₁, hended₁⟩ := h.stands j other r₁ hother hj
    exact (hmakes a ha).leaves (hpass j other hother hji) hstands₁ (hended₁.symm.trans hrun₁)
  obtain ⟨bs, hbs, hapart, hrun', hcall⟩ := Serial.run_goes hr hrun hg hothers
  have hending : s.ending bo (.advance i slot) = if inv'.isDone then [some i] else [] := by
    simp only [ending, hi, Option.bind_some, hn]
  have hcalls : (t.txs.set i r').map Serial.Running.call = t.txs.map Serial.Running.call := by
    have hsame : (t.txs.map Serial.Running.call)[i]? = some r'.call := by
      rw [List.getElem?_map, hr, Option.map_some, hcall]
    obtain ⟨hlt, hget⟩ := List.getElem?_eq_some_iff.1 hsame
    rw [List.map_set, ← hget, List.set_getElem_self]
  cases hdone : inv'.isDone with
  | false =>
    exact ⟨_, ⟨bs, hbs, hapart⟩,
      h.set hi hn hpass hcoherent hstands' (hrun'.trans hdone.symm) _,
      hcalls.trans (List.append_nil _).symm, by rw [hending, hdone]; exact (List.append_nil _).symm,
      (List.append_nil _).symm⟩
  | true =>
    obtain ⟨o, ho⟩ := Invocation.rest_of_isDone bo hdone
    have hrest : r'.rest = .ret o := hstands'.rest.trans ho
    have hset := List.getElem?_set_self (a := r') (List.getElem?_eq_some_iff.1 hr).1
    have hstep : Serial.step (HookCall.body bo)
        ⟨m'.plain, t.txs.set i r', t.ended⟩ (.finish i) =
        some ⟨m'.plain, (t.txs.set i r').set i { r' with ended := true },
          t.ended ++ [⟨some i, r'.call, o⟩]⟩ := by
      simp only [Serial.step, hset, Option.bind_some, hrun', hrest]
    rw [List.set_set] at hstep
    have hlast : (transactions bo).Steps
        (Serial.Apart (HookCall.body bo)) ⟨m'.plain, t.txs.set i r', t.ended⟩ [.finish i] :=
      ⟨trivial, fun _ _ => trivial⟩
    refine ⟨⟨m'.plain, t.txs.set i { r' with ended := true },
      t.ended ++ [⟨some i, r'.call, o⟩]⟩,
      ⟨bs ++ [.finish i], ?_, hapart.append hbs hlast⟩,
      h.set (r := { r' with ended := true }) hi hn hpass hcoherent
        (.done hstands'.rest hdone) hdone.symm _,
      ?_, ?_, ?_⟩
    · rw [System.run_append_eq _ hbs]
      exact System.run_cons_eq hstep
    · rw [← hcalls, List.map_set, List.map_set]
      exact (List.append_nil _).symm
    · rw [hending, hdone, List.map_append]
      rfl
    · rw [List.filter_append, List.map_append]
      rfl

/-- A step that is apart, and whose update does not fail, is one of the transactions. -/
theorem Follows.answers (h : s.Follows bo t) {a : KernelAct ρ} (hapart : s.Apart bo a)
    (hundisturbed : s.Undisturbed bo a) (hsucceeds : s.Succeeds a) (hs : step bo s a = some s') :
    ∃ t', Answers bo s a s' t t' := by
  have hcoherent := allCoherent_step h.coherent hundisturbed hs
  cases a with
  | configure conf =>
    obtain rfl := Option.some.inj hs
    exact h.configure conf hapart
  | connect4 pidTgid cookie ctx =>
    obtain rfl := Option.some.inj hs
    exact h.start rfl rfl rfl hcoherent trivial rfl rfl
  | sockOps cookie ctx =>
    obtain rfl := Option.some.inj hs
    exact h.start rfl rfl rfl hcoherent trivial rfl rfl
  | sockOpt ctx =>
    obtain rfl := Option.some.inj hs
    exact h.start rfl rfl rfl hcoherent (fun _ _ hpc => nomatch hpc) rfl rfl
  | advance i slot =>
    obtain ⟨inv, hi, hs⟩ := Option.bind_eq_some_iff.1 hs
    obtain ⟨⟨m', inv'⟩, hn, rfl⟩ := Option.map_eq_some_iff.1 hs
    refine h.advance hi hn (fun hslot => ?_) (fun j other hj hji => ?_) hcoherent
    · subst hslot
      exact hsucceeds inv hi
    · exact hapart inv hi j (List.getElem?_eq_some_iff.1 hj).1 hji other hj

omit [DecidableEq ρ] in
theorem follows_initial : (initial (ρ := ρ)).Follows bo (transactions bo).init where
  store := by
    funext l
    cases l <;> rfl
  length := rfl
  stands := fun i inv r hi => by
    have hnone : ([] : List (Invocation ρ))[i]? = some inv := hi
    cases hnone
  coherent := fun c hc => absurd hc List.not_mem_nil
  held := fun inv hinv => absurd hinv List.not_mem_nil

/-- The transactions have done what the hooks have done. -/
structure Answered (bo : ByteOrder) (as : List (KernelAct ρ)) (s : Kernel ρ) (t : HookState) :
    Prop where
  run : ∃ bs, (transactions bo).run (transactions bo).init bs = some t ∧
    (transactions bo).Steps (Serial.Apart (HookCall.body bo)) (transactions bo).init bs
  follows : s.Follows bo t
  calls : t.txs.map Serial.Running.call = invoked as
  numbers : t.ended.map Serial.Entry.number = (system bo ρ).shown (ending bo) initial as
  configured : (t.ended.filter fun e => e.number.isNone).map Serial.Entry.call =
    as.filterMap KernelAct.configuration

omit [DecidableEq ρ] in
private theorem filterMap_one {β : Type} (f : KernelAct ρ → Option β) (a : KernelAct ρ) :
    [a].filterMap f = (f a).toList := by
  cases h : f a with
  | none => exact List.filterMap_cons_none h
  | some b => exact List.filterMap_cons_some h

theorem Answered.concat {as : List (KernelAct ρ)} {t' : HookState} (h : Answered bo as s t)
    (hrun : (system bo ρ).run initial as = some s) {a : KernelAct ρ}
    (ha : Answers bo s a s' t t') :
    Answered bo (as ++ [a]) s' t' where
  run := by
    obtain ⟨bs, hbs, hapart⟩ := h.run
    obtain ⟨bs', hbs', hapart'⟩ := ha.run
    exact ⟨bs ++ bs', by rw [System.run_append_eq _ hbs, hbs'], hapart.append hbs hapart'⟩
  follows := ha.follows
  calls := by
    rw [ha.calls, h.calls, invoked, invoked, List.filterMap_append, filterMap_one]
  numbers := by rw [ha.numbers, h.numbers, System.shown_concat a hrun]
  configured := by
    rw [ha.configured, h.configured, List.filterMap_append, filterMap_one]

/-- A run of the hooks that is apart, and in which no update fails, is one of the transactions. -/
theorem answered_of_run {as : List (KernelAct ρ)} (hrun : (system bo ρ).run initial as = some s)
    (hok : (system bo ρ).Steps (fun s a => (s.Apart bo a ∧ s.Undisturbed bo a) ∧ s.Succeeds a)
      initial as) :
    ∃ t, Answered bo as s t := by
  refine System.run_traced (S := system bo ρ) (I := fun as s => ∃ t, Answered bo as s t)
    ⟨_, ⟨[], rfl, trivial⟩, follows_initial, rfl, rfl, rfl⟩
      (fun as s a s' hs h hok hstep => ?_) hok hrun
  obtain ⟨t, h⟩ := h
  obtain ⟨t', ha⟩ := h.follows.answers hok.1.1 hok.1.2 hok.2 hstep
  exact ⟨t', h.concat hs ha⟩

/-- The order in which the hooks are as good as atomic. -/
structure SerialAs (bo : ByteOrder) (as : List (KernelAct ρ)) (s : Kernel ρ)
    (order : List (Serial.Entry HookCall Outcome)) : Prop where
  /-- It is that of their ends. -/
  numbers : order.map Serial.Entry.number = (system bo ρ).shown (ending bo) initial as
  configured : (order.filter fun e => e.number.isNone).map Serial.Entry.call =
    as.filterMap KernelAct.configuration
  invoked : ∀ e ∈ order, ∀ i, e.number = some i → (invoked as)[i]? = some e.call ∧
    ∃ inv, s.calls[i]? = some inv ∧ inv.isDone = true ∧ inv.rest bo = .ret e.result
  complete : ∀ (i : ℕ) (inv : Invocation ρ), s.calls[i]? = some inv → inv.isDone = true →
    ∃ e ∈ order, e.number = some i
  once : (order.filterMap Serial.Entry.number).Nodup
  /-- One after the other, the atomic hooks come to the same, and leave in the maps what is
  there. -/
  atomic : ∀ cap, order.length ≤ cap →
    ∃ h, (Hooks.system bo cap).run (Hooks.initial cap) (order.map Serial.Entry.call) = some h ∧
      h.outcomes = order.map Serial.Entry.result ∧
      ∀ l, (∀ inv ∈ s.calls, inv.isDone = false → l ∉ inv.writes bo) →
        s.maps.plain l = h.plain l

/-- **Hooks that overlap are as good as atomic.** In every run in which no invocation touches an
entry that another running one has touched, unless both only read, in which no slot is taken under
the eyes of a query and no update fails, the hooks that have ended did what the atomic hooks of
`Hooks.lean` do one after the other, in the order of their ends. -/
theorem hooks_serializable {as : List (KernelAct ρ)}
    (hrun : (system bo ρ).run initial as = some s)
    (hok : (system bo ρ).Steps (fun s a => (s.Apart bo a ∧ s.Undisturbed bo a) ∧ s.Succeeds a)
      initial as) :
    ∃ order, SerialAs bo as s order := by
  obtain ⟨t, h⟩ := answered_of_run hrun hok
  obtain ⟨bs, hbs, hapart⟩ := h.run
  obtain ⟨σ, hordered⟩ := Serial.serializable hbs hapart
  refine ⟨t.ended, h.numbers, h.configured, fun e he i hi => ?_,
    fun i inv hi hdone => ?_, hordered.once,
    fun cap hcap => ?_⟩
  · obtain ⟨r, hr, hended, hcall, hrest⟩ := hordered.entries e he i hi
    obtain ⟨inv, hinv⟩ := h.follows.exists_call hr
    obtain ⟨hstands, hdone⟩ := h.follows.stands i inv r hinv hr
    refine ⟨?_, inv, hinv, hdone.symm.trans hended, hstands.rest.symm.trans hrest⟩
    rw [← h.calls, List.getElem?_map, hr, Option.map_some, hcall]
  · obtain ⟨r, hr⟩ := h.follows.exists_tx hi
    exact hordered.complete i r hr ((h.follows.stands i inv r hi hr).2.trans hdone)
  · have hlen : (t.ended.map Serial.Entry.call).length ≤ cap := by rwa [List.length_map]
    obtain ⟨hooks, hrun', houtcomes, hplain⟩ :=
      Hooks.run_eq_serially bo (Hooks.Room.steps (Hooks.room_initial hlen))
    have hempty : (Hooks.initial cap).plain = Loc.empty := by
      funext l
      cases l <;> rfl
    rw [hempty, hordered.ended] at houtcomes hplain
    refine ⟨hooks, hrun', houtcomes, fun l hl => ?_⟩
    rw [hplain, ← h.follows.store]
    refine hordered.unwritten l fun r hr hended => ?_
    obtain ⟨j, hj⟩ := List.getElem?_of_mem hr
    obtain ⟨inv, hinv⟩ := h.follows.exists_call hj
    obtain ⟨hstands, hdone⟩ := h.follows.stands j inv r hinv hj
    exact fun hw => hl inv (List.mem_of_getElem? hinv) (hdone.symm.trans hended)
      (hstands.writes (hdone.symm.trans hended) hw)

/-- A socket is established, and recorded, while the query of another one runs: it comes first. -/
theorem hooks_serializable_otherSlot : ∃ s order,
    (system .little (Fin maxConnections)).run initial
      (twoSockets ++ queryMeets 1 ++ [.advance 3 none]) =
      some s ∧
    SerialAs .little (twoSockets ++ queryMeets 1 ++ [.advance 3 none]) s order ∧
    order.map Serial.Entry.number = [none, some 0, some 1, some 2, some 4, some 3] := by
  obtain ⟨s, hrun⟩ : ∃ s, (system .little (Fin maxConnections)).run initial
      (twoSockets ++ queryMeets 1 ++ [.advance 3 none]) = some s := ⟨_, rfl⟩
  obtain ⟨order, horder⟩ := hooks_serializable hrun (by decide)
  exact ⟨s, order, hrun, horder, horder.numbers.trans rfl⟩

end Kernel

end AutomaticCache
