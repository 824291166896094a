import AutomaticCache.Bpf.Hooks
import AutomaticCache.Lib.Run
import AutomaticCache.Lib.Serial

/-!
# The hooks as transactions

Each hook reads and writes entries of the three maps, one helper call at a time. Alone, a hook as a
transaction is the atomic one of `Hooks.lean`, where the maps admit what it puts
(`Hooks.call_eq_exec`).
-/

namespace AutomaticCache

open Endian

/-- An entry of a map. -/
inductive Loc
  | config
  | port (p : BitVec 16)
  | sock (k : Cookie)
  deriving DecidableEq

abbrev Loc.Val : Loc → Type
  | .config => Config
  | .port _ => Option Cookie
  | .sock _ => Option Socket

/-- An invocation of a hook, or the loader's write of `map_config`. -/
inductive HookCall
  | configure (conf : Config)
  | connect4 (pidTgid : BitVec 64) (cookie : Cookie) (ctx : BpfSockAddr)
  | sockOps (cookie : Cookie) (ctx : BpfSockOps)
  | sockOpt (ctx : BpfSockopt)

/-- What becomes of the context. -/
inductive Outcome
  | configured
  | connect4 (ctx : BpfSockAddr)
  | sockOps
  | sockOpt (ctx : BpfSockopt)

abbrev HookTx := Serial.Tx Loc Loc.Val Outcome

/-! ## What is left of a hook -/

def redirects (bo : ByteOrder) (cookie : Cookie) (ctx : BpfSockAddr) : HookTx :=
  .op (.write (.sock cookie) (some (recordOf bo ctx))) fun _ =>
    .op (.read .config) fun conf => .ret (.connect4 (rewritten bo conf ctx))

def connects (bo : ByteOrder) (pidTgid : BitVec 64) (cookie : Cookie) (ctx : BpfSockAddr) :
    HookTx :=
  if ctx.userFamily ≠ afInet then .ret (.connect4 ctx)
  else if ctx.protocol ≠ ipprotoTcp then .ret (.connect4 ctx)
  else if ctx.userPort ≠ (htons bo minioPort).setWidth 32 then .ret (.connect4 ctx)
  else .op (.read .config) fun conf =>
    if pidTgid >>> 32 = conf.proxyPid then .ret (.connect4 ctx) else redirects bo cookie ctx

def records (port : BitVec 16) (cookie : Cookie) : HookTx :=
  .op (.write (.port port) (some cookie)) fun _ => .ret .sockOps

def establishes (cookie : Cookie) (ctx : BpfSockOps) : HookTx :=
  if ctx.family ≠ afInet then .ret .sockOps
  else if ctx.op = activeEstablishedCb then
    .op (.read (.sock cookie)) fun (found : Option Socket) =>
      match found with
      | some _ => records (ctx.localPort.setWidth 16) cookie
      | none => .ret .sockOps
  else .ret .sockOps

def deletesSock (cookie : Cookie) (ctx : BpfSockopt) : HookTx :=
  .op (.write (.sock cookie) none) fun _ => .ret (.sockOpt ctx)

def deletesPort (port : BitVec 16) (cookie : Cookie) (ctx : BpfSockopt) : HookTx :=
  .op (.write (.port port) none) fun _ => deletesSock cookie ctx

/-- The record is there, and is read once more. -/
def answers (bo : ByteOrder) (port : BitVec 16) (cookie : Cookie) (ctx : BpfSockopt) : HookTx :=
  .op (.read (.sock cookie)) fun (found : Option Socket) =>
    match found with
    | none => .ret (.sockOpt ctx)
    | some sock => deletesPort port cookie (answered bo sock ctx)

def finds (bo : ByteOrder) (port : BitVec 16) (cookie : Cookie) (ctx : BpfSockopt) : HookTx :=
  .op (.read (.sock cookie)) fun (found : Option Socket) =>
    match found with
    | none => .ret (.sockOpt ctx)
    | some _ =>
      if ctx.optvalSize < sizeofSockaddrIn then .ret (.sockOpt ctx) else answers bo port cookie ctx

def queries (bo : ByteOrder) (ctx : BpfSockopt) : HookTx :=
  if ctx.optname ≠ soOriginalDst then .ret (.sockOpt ctx)
  else if ctx.skFamily ≠ afInet then .ret (.sockOpt ctx)
  else if ctx.skProtocol ≠ ipprotoTcp then .ret (.sockOpt ctx)
  else .op (.read (.port (ntohs bo ctx.skDstPort))) fun (found : Option Cookie) =>
    match found with
    | none => .ret (.sockOpt ctx)
    | some cookie => finds bo (ntohs bo ctx.skDstPort) cookie ctx

def HookCall.body (bo : ByteOrder) : HookCall → HookTx
  | .configure conf => .op (.write .config conf) fun _ => .ret .configured
  | .connect4 pidTgid cookie ctx => connects bo pidTgid cookie ctx
  | .sockOps cookie ctx => establishes cookie ctx
  | .sockOpt ctx => queries bo ctx

/-! ## One hook at a time -/

/-- The maps, and what became of the contexts so far. -/
structure Hooks (cap : ℕ) where
  config : Config
  ports : MapPorts cap
  socks : MapSocks cap
  outcomes : List Outcome

namespace Hooks

variable {cap : ℕ} (bo : ByteOrder)

def initial (cap : ℕ) : Hooks cap := ⟨.zero, ∅, ∅, []⟩

/-- The atomic hooks. -/
def call (h : Hooks cap) : HookCall → Hooks cap
  | .configure conf => { h with config := conf, outcomes := h.outcomes ++ [.configured] }
  | .connect4 pidTgid cookie ctx => { h with
      socks := (cgConnect4 bo h.config pidTgid cookie h.socks ctx).2.1
      outcomes :=
        h.outcomes ++ [.connect4 (cgConnect4 bo h.config pidTgid cookie h.socks ctx).2.2] }
  | .sockOps cookie ctx => { h with
      ports := (cgSockOps cookie h.socks h.ports ctx).2
      outcomes := h.outcomes ++ [.sockOps] }
  | .sockOpt ctx => { h with
      ports := (cgSockOpt bo h.ports h.socks ctx).2.1
      socks := (cgSockOpt bo h.ports h.socks ctx).2.2.1
      outcomes := h.outcomes ++ [.sockOpt (cgSockOpt bo h.ports h.socks ctx).2.2.2] }

def system (cap : ℕ) : Runs.System (Hooks cap) HookCall :=
  ⟨initial cap, fun h c => some (h.call bo c)⟩

/-- The map that the hook puts to admits the key. -/
def Admits (h : Hooks cap) : HookCall → Prop
  | .connect4 _ cookie _ => h.socks.Admits cookie
  | .sockOps _ ctx => h.ports.Admits (ctx.localPort.setWidth 16)
  | .configure _ | .sockOpt _ => True

/-- The plain values. -/
def plain (h : Hooks cap) : Serial.Store Loc.Val
  | .config => h.config
  | .port p => h.ports.lookup p
  | .sock k => h.socks.lookup k

variable {bo} {h : Hooks cap}

theorem plain_putSock (h : Hooks cap) {k : Cookie} (v : Socket) (hadm : h.socks.Admits k) :
    Function.update h.plain (.sock k) (some v) = { h with socks := h.socks.put k v }.plain := by
  refine Function.update_eq_iff.2 ⟨(BoundedMap.lookup_put v hadm).symm, fun l hl => ?_⟩
  cases l with
  | sock k' => exact (BoundedMap.lookup_put_of_ne v fun he => hl (congrArg Loc.sock he)).symm
  | _ => rfl

theorem plain_putPort (h : Hooks cap) {p : BitVec 16} (k : Cookie) (hadm : h.ports.Admits p) :
    Function.update h.plain (.port p) (some k) = { h with ports := h.ports.put p k }.plain := by
  refine Function.update_eq_iff.2 ⟨(BoundedMap.lookup_put k hadm).symm, fun l hl => ?_⟩
  cases l with
  | port p' => exact (BoundedMap.lookup_put_of_ne k fun he => hl (congrArg Loc.port he)).symm
  | _ => rfl

theorem plain_delete (h : Hooks cap) (p : BitVec 16) (k : Cookie) :
    Function.update (Function.update h.plain (.port p) none) (.sock k) none =
      { h with ports := h.ports.delete p, socks := h.socks.delete k }.plain := by
  have hport : Function.update h.plain (.port p) none =
      { h with ports := h.ports.delete p }.plain := by
    refine Function.update_eq_iff.2 ⟨(BoundedMap.lookup_delete h.ports p).symm, fun l hl => ?_⟩
    cases l with
    | port p' => exact (BoundedMap.lookup_delete_of_ne fun he => hl (congrArg Loc.port he)).symm
    | _ => rfl
  rw [hport]
  refine Function.update_eq_iff.2 ⟨(BoundedMap.lookup_delete h.socks k).symm, fun l hl => ?_⟩
  cases l with
  | sock k' => exact (BoundedMap.lookup_delete_of_ne fun he => hl (congrArg Loc.sock he)).symm
  | _ => rfl

theorem exec_connects {pidTgid : BitVec 64} {cookie : Cookie} {ctx : BpfSockAddr}
    (hadm : h.socks.Admits cookie) :
    Prog.exec Serial.access (connects bo pidTgid cookie ctx) h.plain =
      (.connect4 (cgConnect4 bo h.config pidTgid cookie h.socks ctx).2.2,
        { h with socks := (cgConnect4 bo h.config pidTgid cookie h.socks ctx).2.1 }.plain) := by
  by_cases hr : Redirects bo h.config pidTgid ctx
  · rw [cgConnect4_of_redirects cookie h.socks hr]
    obtain ⟨hf, hp, hport, hpid⟩ := hr
    unfold connects BpfSockAddr.userPort
    rw [if_neg (not_not.2 hf), if_neg (not_not.2 hp), if_neg (not_not.2 (setWidth_inj.2 hport)),
      Prog.exec_op]
    show Prog.exec Serial.access (if pidTgid >>> 32 = h.config.proxyPid then _ else _) h.plain = _
    rw [if_neg hpid]
    rw [← plain_putSock h (recordOf bo ctx) hadm]
    rfl
  · rw [cgConnect4_of_not_redirects cookie h.socks hr]
    unfold connects BpfSockAddr.userPort
    split_ifs with hf hp hport
    · rfl
    · rfl
    · rfl
    · have hpid : pidTgid >>> 32 = h.config.proxyPid := by
        by_contra hne
        exact hr ⟨not_not.1 hf, not_not.1 hp, setWidth_inj.1 (not_not.1 hport), hne⟩
      rw [Prog.exec_op]
      show Prog.exec Serial.access (if pidTgid >>> 32 = h.config.proxyPid then _ else _) h.plain = _
      rw [if_pos hpid]
      rfl

theorem exec_establishes {cookie : Cookie} {ctx : BpfSockOps}
    (hadm : h.ports.Admits (ctx.localPort.setWidth 16)) :
    Prog.exec Serial.access (establishes cookie ctx) h.plain =
      (.sockOps, { h with ports := (cgSockOps cookie h.socks h.ports ctx).2 }.plain) := by
  unfold establishes cgSockOps
  split_ifs with hf hop
  · rfl
  · rw [Prog.exec_op]
    show Prog.exec Serial.access (match h.socks.lookup cookie with | some _ => _ | none => _)
      h.plain = _
    cases h.socks.lookup cookie with
    | none => rfl
    | some sock =>
      show (Outcome.sockOps, Function.update h.plain (.port _) _) = _
      rw [plain_putPort h cookie hadm]
  · rfl

theorem exec_answers {port : BitVec 16} {cookie : Cookie} {ctx : BpfSockopt} {sock : Socket}
    (hsock : h.socks.lookup cookie = some sock) :
    Prog.exec Serial.access (answers bo port cookie ctx) h.plain =
      (.sockOpt (answered bo sock ctx),
        { h with ports := h.ports.delete port, socks := h.socks.delete cookie }.plain) := by
  rw [← plain_delete]
  unfold answers
  rw [Prog.exec_op]
  show Prog.exec Serial.access (match h.socks.lookup cookie with | none => _ | some _ => _)
    h.plain = _
  rw [hsock]
  rfl

theorem exec_finds {port : BitVec 16} {cookie : Cookie} {ctx : BpfSockopt} :
    Prog.exec Serial.access (finds bo port cookie ctx) h.plain =
      match h.socks.lookup cookie with
      | none => (.sockOpt ctx, h.plain)
      | some sock =>
        if ctx.optvalSize < sizeofSockaddrIn then (.sockOpt ctx, h.plain)
        else (.sockOpt (answered bo sock ctx),
          { h with ports := h.ports.delete port, socks := h.socks.delete cookie }.plain) := by
  unfold finds
  rw [Prog.exec_op]
  show Prog.exec Serial.access (match h.socks.lookup cookie with | none => _ | some _ => _)
    h.plain = _
  cases hsock : h.socks.lookup cookie with
  | none => rfl
  | some sock =>
    dsimp only
    split_ifs
    · rfl
    · exact exec_answers hsock

theorem exec_queries {ctx : BpfSockopt} : Prog.exec Serial.access (queries bo ctx) h.plain =
    (.sockOpt (cgSockOpt bo h.ports h.socks ctx).2.2.2,
      { h with
        ports := (cgSockOpt bo h.ports h.socks ctx).2.1
        socks := (cgSockOpt bo h.ports h.socks ctx).2.2.1 }.plain) := by
  by_cases hq : Queries ctx
  · obtain ⟨hn, hf, hp⟩ := id hq
    unfold queries
    rw [if_neg (not_not.2 hn), if_neg (not_not.2 hf), if_neg (not_not.2 hp), Prog.exec_op]
    show Prog.exec Serial.access (match h.ports.lookup (ntohs bo ctx.skDstPort) with
      | none => _ | some cookie => _) h.plain = _
    cases hport : h.ports.lookup (ntohs bo ctx.skDstPort) with
    | none =>
      rw [cgSockOpt_of_not_resolves fun ⟨_, ⟨_, hl, _⟩, _⟩ => nomatch hport.symm.trans hl]
      rfl
    | some cookie =>
      dsimp only
      rw [exec_finds]
      cases hsock : h.socks.lookup cookie with
      | none =>
        rw [cgSockOpt_of_not_resolves]
        rintro ⟨-, ⟨_, hl, hm⟩, -⟩
        rw [hport, Option.some.injEq] at hl
        exact hm (hl ▸ hsock)
      | some sock =>
        dsimp only
        split_ifs with hsize
        · rw [cgSockOpt_of_not_resolves fun hr => absurd hr.2.2 (Nat.not_le.2 hsize)]
        · rw [cgSockOpt_of_resolves hq hport hsock (Nat.not_lt.1 hsize)]
  · rw [cgSockOpt_of_not_resolves fun hr => hq hr.1]
    unfold Queries at hq
    unfold queries
    split_ifs with hn hf hp
    · rfl
    · rfl
    · rfl
    · exact absurd ⟨not_not.1 hn, not_not.1 hf, not_not.1 hp⟩ hq

variable (bo) in
/-- A hook that runs alone is the atomic one. -/
theorem call_eq_exec {c : HookCall} (hadm : h.Admits c) :
    (h.call bo c).outcomes = h.outcomes ++ [(Prog.exec Serial.access (c.body bo) h.plain).1] ∧
      (h.call bo c).plain = (Prog.exec Serial.access (c.body bo) h.plain).2 := by
  cases c with
  | configure conf =>
    refine ⟨rfl, (Function.update_eq_iff.2 ⟨rfl, fun l hl => ?_⟩).symm⟩
    cases l with
    | config => exact absurd rfl hl
    | _ => rfl
  | connect4 pidTgid cookie ctx =>
    exact ⟨by rw [HookCall.body, exec_connects hadm]; rfl,
      by rw [HookCall.body, exec_connects hadm]; rfl⟩
  | sockOps cookie ctx =>
    exact ⟨by rw [HookCall.body, exec_establishes hadm]; rfl,
      by rw [HookCall.body, exec_establishes hadm]; rfl⟩
  | sockOpt ctx =>
    exact ⟨by rw [HookCall.body, exec_queries]; rfl, by rw [HookCall.body, exec_queries]; rfl⟩

variable (bo) in
/-- One after the other, with room for all, the transactions are the atomic hooks. -/
theorem run_eq_serially {cs : List HookCall} (hadm : (system bo cap).Steps Admits h cs) :
    ∃ h', (system bo cap).run h cs = some h' ∧
      h'.outcomes = h.outcomes ++ (Serial.serially (HookCall.body bo) cs h.plain).1 ∧
      h'.plain = (Serial.serially (HookCall.body bo) cs h.plain).2 := by
  induction cs generalizing h with
  | nil => exact ⟨h, rfl, (List.append_nil _).symm, rfl⟩
  | cons c cs ih =>
    obtain ⟨houtcomes, hplain⟩ := call_eq_exec bo hadm.1
    obtain ⟨h', hrun, houtcomes', hplain'⟩ := ih (hadm.2 (h.call bo c) rfl)
    refine ⟨h', hrun, ?_, ?_⟩
    · rw [houtcomes', houtcomes, hplain, List.append_assoc]
      rfl
    · rw [hplain', hplain]
      rfl

/-- There is room for `n` more entries. -/
def Room (h : Hooks cap) (n : ℕ) : Prop :=
  h.ports.entries.keys.card + n ≤ cap ∧ h.socks.entries.keys.card + n ≤ cap

theorem Room.call {n : ℕ} (hroom : h.Room (n + 1)) (c : HookCall) : (h.call bo c).Room n := by
  obtain ⟨hports, hsocks⟩ := hroom
  have hsame : h.Room n := ⟨by omega, by omega⟩
  cases c with
  | configure conf => exact hsame
  | connect4 pidTgid cookie ctx =>
    refine ⟨hsame.1, ?_⟩
    show (cgConnect4 bo h.config pidTgid cookie h.socks ctx).2.1.entries.keys.card + n ≤ cap
    by_cases hr : Redirects bo h.config pidTgid ctx
    · rw [cgConnect4_of_redirects cookie h.socks hr]
      have hcard := h.socks.card_put_le cookie (recordOf bo ctx)
      dsimp only
      omega
    · rw [cgConnect4_of_not_redirects cookie h.socks hr]
      exact hsame.2
  | sockOps cookie ctx =>
    refine ⟨?_, hsame.2⟩
    show (cgSockOps cookie h.socks h.ports ctx).2.entries.keys.card + n ≤ cap
    have hcard := h.ports.card_put_le (ctx.localPort.setWidth 16) cookie
    unfold cgSockOps
    split_ifs
    · exact hsame.1
    · cases h.socks.lookup cookie with
      | none => exact hsame.1
      | some sock =>
        dsimp only
        omega
    · exact hsame.1
  | sockOpt ctx =>
    show ((cgSockOpt bo h.ports h.socks ctx).2.1.entries.keys.card + n ≤ cap) ∧
      ((cgSockOpt bo h.ports h.socks ctx).2.2.1.entries.keys.card + n ≤ cap)
    by_cases hr : Queries ctx ∧ Resolves bo h.ports h.socks ctx
    · obtain ⟨hq, ⟨cookie, hport, hm⟩, hsize⟩ := hr
      obtain ⟨sock, hsock⟩ := BoundedMap.mem_iff_exists.1 hm
      rw [cgSockOpt_of_resolves hq hport hsock hsize]
      have hports' := h.ports.card_delete_le (ntohs bo ctx.skDstPort)
      have hsocks' := h.socks.card_delete_le cookie
      dsimp only
      omega
    · rw [cgSockOpt_of_not_resolves hr]
      exact hsame

theorem Room.admits {n : ℕ} (hroom : h.Room (n + 1)) (c : HookCall) : h.Admits c := by
  obtain ⟨hports, hsocks⟩ := hroom
  cases c with
  | connect4 pidTgid cookie ctx => exact BoundedMap.admits_of_card_lt (by omega) cookie
  | sockOps cookie ctx => exact BoundedMap.admits_of_card_lt (by omega) _
  | configure conf | sockOpt ctx => trivial

/-- Where there is room for as many entries as there are calls, all of them are admitted. -/
theorem Room.steps {cs : List HookCall} (hroom : h.Room cs.length) :
    (system bo cap).Steps Admits h cs := by
  induction cs generalizing h with
  | nil => trivial
  | cons c cs ih =>
    refine ⟨hroom.admits c, fun h' hs => ?_⟩
    obtain rfl := Option.some.inj hs
    exact ih (hroom.call c)

theorem room_initial {n : ℕ} (hn : n ≤ cap) : (initial cap).Room n := by
  have hempty {κ ν : Type} : (∅ : BoundedMap κ ν cap).entries.keys.card = 0 := by
    show (∅ : Finmap fun _ : κ => ν).keys.card = 0
    rw [Finmap.keys_empty, Finset.card_empty]
  exact ⟨by rwa [initial, hempty, Nat.zero_add], by rwa [initial, hempty, Nat.zero_add]⟩

end Hooks

end AutomaticCache
