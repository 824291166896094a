import AutomaticCache.Bpf.Deployment
import Mathlib.Data.List.Infix

/-!
# Start-up

`run` attaches `cg_connect4` first and writes `map_config` last. `Booting` says what is attached,
listening and configured by what remains of the start-up, at every step (`booting_of_reachable`).

Until `map_config` is written its one element is all zero. The lookup in `cg_connect4` finds that
element, so that its test for a missing configuration does not see the difference, and clients are
sent to port 0: `Booting.safeConnect_iff` says exactly which calls are safe.
-/

namespace AutomaticCache

open Endian

namespace Deployment

variable {cap : ℕ} {bo : ByteOrder} {pid : BitVec 64} {s s' : Deployment cap}

/-- What the start-up has done so far, read off what remains of it. -/
structure Booting (pid : BitVec 64) (s : Deployment cap) : Prop where
  suffix : s.todo <:+ startUp
  connect4 : s.connect4 = true ↔ .attachConnect4 ∉ s.todo
  sockOps : s.sockOps = true ↔ .attachSockOps ∉ s.todo
  sockOpt : s.sockOpt = true ↔ .attachSockOpt ∉ s.todo
  listening : s.listening = true ↔ .listen ∉ s.todo
  config : s.config = if .writeConfig ∈ s.todo then .zero else ⟨proxyPort, pid⟩

theorem booting_initial : Booting pid (initial : Deployment cap) where
  suffix := List.suffix_rfl
  connect4 := by simp [initial, startUp]
  sockOps := by simp [initial, startUp]
  sockOpt := by simp [initial, startUp]
  listening := by simp [initial, startUp]
  config := by simp [initial, startUp]

/-- The fields that only the start-up changes. -/
def bootFields (s : Deployment cap) : List BootStep × Bool × Bool × Bool × Bool × Config :=
  (s.todo, s.connect4, s.sockOps, s.sockOpt, s.listening, s.config)

/-- A step of the clients or of the proxy leaves the start-up alone. -/
theorem bootFields_step {a : Act} (ha : a ≠ .boot) (h : step bo pid s a = some s') :
    s'.bootFields = s.bootFields := by
  cases a with
  | boot => exact absurd rfl ha
  | connect cookie pidTgid ctx => obtain ⟨_, rfl⟩ := step_connect h; rfl
  | establish i srcAddr srcPort => obtain ⟨c, _, _, rfl⟩ := step_establish h; rfl
  | sockOps cookie ctx => rw [step_sockOps h]
  | close i => obtain ⟨c, _, _, rfl⟩ := step_close h; rfl
  | accept i => obtain ⟨c, _, _, rfl⟩ := step_accept h; rfl
  | drop i => obtain ⟨c, _, _, rfl⟩ := step_drop h; rfl
  | query i retval => obtain ⟨c, _, _, rfl⟩ := step_query h; rfl
  | getsockopt ctx => exact (Option.some.inj h) ▸ rfl

theorem Booting.of_bootFields (hb : Booting pid s) (h : s'.bootFields = s.bootFields) :
    Booting pid s' := by
  unfold bootFields at h
  simp only [Prod.mk.injEq] at h
  obtain ⟨h1, h2, h3, h4, h5, h6⟩ := h
  exact ⟨h1 ▸ hb.suffix, h1 ▸ h2 ▸ hb.connect4, h1 ▸ h3 ▸ hb.sockOps,
    h1 ▸ h4 ▸ hb.sockOpt,
    h1 ▸ h5 ▸ hb.listening, h1 ▸ h6 ▸ hb.config⟩

/-- What can remain of the start-up when a step of it is due. -/
theorem suffix_cases {b : BootStep} {rest : List BootStep} (h : b :: rest <:+ startUp) :
    (b = .attachConnect4 ∧ rest = [.attachSockOps, .attachSockOpt, .listen, .writeConfig]) ∨
    (b = .attachSockOps ∧ rest = [.attachSockOpt, .listen, .writeConfig]) ∨
    (b = .attachSockOpt ∧ rest = [.listen, .writeConfig]) ∨
    (b = .listen ∧ rest = [.writeConfig]) ∨ (b = .writeConfig ∧ rest = []) := by
  rw [← List.mem_tails] at h
  simpa [startUp] using h

theorem Booting.boot (hb : Booting pid s) {b : BootStep} {rest : List BootStep}
    (ht : s.todo = b :: rest) : Booting pid (perform pid { s with todo := rest } b) := by
  obtain ⟨hsuf, h1, h2, h3, h4, h5⟩ := hb
  rw [ht] at hsuf h1 h2 h3 h4 h5
  have hsuf' : rest <:+ startUp := (List.suffix_cons b rest).trans hsuf
  rcases suffix_cases hsuf with ⟨rfl, rfl⟩ | ⟨rfl, rfl⟩ | ⟨rfl, rfl⟩ | ⟨rfl,
    rfl⟩ | ⟨rfl, rfl⟩ <;>
    refine ⟨hsuf', ?_, ?_, ?_, ?_, ?_⟩ <;> simp_all [perform]

theorem booting_step {a : Act} (hb : Booting pid s) (h : step bo pid s a = some s') :
    Booting pid s' := by
  by_cases ha : a = .boot
  · subst ha
    obtain ⟨b, rest, ht, rfl⟩ := step_boot h
    exact hb.boot ht
  · exact hb.of_bootFields (bootFields_step ha h)

theorem booting_of_reachable (h : (system bo pid cap).Reachable s) : Booting pid s :=
  h.invariant booting_initial fun _ _ _ hb hs => booting_step hb hs

/-- Once the last step is done, all are. -/
theorem Booting.todo_of_configured (hb : Booting pid s) (h : .writeConfig ∉ s.todo) :
    s.todo = [] := by
  cases ht : s.todo with
  | nil => rfl
  | cons b rest =>
    rw [ht] at h
    rcases suffix_cases (ht ▸ hb.suffix) with
      ⟨rfl, rfl⟩ | ⟨rfl, rfl⟩ | ⟨rfl, rfl⟩ | ⟨rfl, rfl⟩ |
      ⟨rfl, rfl⟩ <;> simp at h

theorem Booting.listening_of_configured (hb : Booting pid s) (h : .writeConfig ∉ s.todo) :
    s.listening = true := by
  rw [hb.listening, hb.todo_of_configured h]
  exact List.not_mem_nil

/-- The proxy listens only after the client-side hooks are attached. -/
theorem Booting.sockOps_of_listening (hb : Booting pid s) (h : s.listening = true) :
    s.sockOps = true := by
  rw [hb.listening] at h
  rw [hb.sockOps]
  cases ht : s.todo with
  | nil => exact List.not_mem_nil
  | cons b rest =>
    rw [ht] at h
    rcases suffix_cases (ht ▸ hb.suffix) with
      ⟨rfl, rfl⟩ | ⟨rfl, rfl⟩ | ⟨rfl, rfl⟩ | ⟨rfl, rfl⟩ |
      ⟨rfl, rfl⟩ <;> simp at h ⊢

theorem Booting.config_of_configured (hb : Booting pid s) (h : .writeConfig ∉ s.todo) :
    s.config = ⟨proxyPort, pid⟩ := by rw [hb.config, if_neg h]

/-- `map_config` never names `minioPort`. -/
theorem Booting.proxyPort_ne (hb : Booting pid s) : s.config.proxyPort ≠ minioPort := by
  rw [hb.config]
  split_ifs
  · decide
  · show proxyPort ≠ minioPort
    decide

/-! ## Redirected calls -/

/-- A redirected call always gets another port. -/
theorem Booting.rewritten_ne (hb : Booting pid s) {pidTgid : BitVec 64} {ctx : BpfSockAddr}
    (h : s.RedirectsCall bo pidTgid ctx) : rewritten bo s.config ctx ≠ ctx := by
  intro he
  have hport : (rewritten bo s.config ctx).sinPort = htons bo minioPort := by
    rw [he]; exact h.2.2.2.1
  cases bo with
  | little =>
    rw [rewritten_sinPort_little] at hport
    exact hb.proxyPort_ne (htons_injective .little hport)
  | big =>
    rw [rewritten_sinPort_big] at hport
    exact absurd hport (by decide)

/-- Only a little-endian build that is configured sends clients to `proxyPort`. -/
theorem Booting.rewritten_sinPort_iff (hb : Booting pid s) (ctx : BpfSockAddr) :
    (rewritten bo s.config ctx).sinPort = htons bo proxyPort ↔
      .writeConfig ∉ s.todo ∧ bo = .little := by
  cases bo with
  | little =>
    rw [rewritten_sinPort_little, (htons_injective .little).eq_iff, hb.config]
    split_ifs with hw
    · exact ⟨fun h => absurd h (by decide), fun h => absurd hw h.1⟩
    · exact ⟨fun _ => ⟨hw, rfl⟩, fun _ => rfl⟩
  | big =>
    rw [rewritten_sinPort_big]
    exact ⟨fun h => absurd h (by decide), fun h => absurd h.2 (by decide)⟩

/-! ## Safety of the start-up -/

/-- A `connect()` is sent elsewhere only to where the proxy already listens, and is left alone
until `map_config` is written. -/
def SafeConnect (bo : ByteOrder) (s : Deployment cap) (pidTgid : BitVec 64) (cookie : Cookie)
    (ctx : BpfSockAddr) : Prop :=
  let ctx' := (s.connectHook bo pidTgid cookie ctx).2
  (ctx' ≠ ctx →
    s.listening = true ∧ ctx'.userIp4 = htonl bo loopback ∧
    ctx'.sinPort = htons bo proxyPort) ∧
  (.writeConfig ∈ s.todo → ctx' = ctx)

/-- The calls of a step are safe. -/
def SafeStep (bo : ByteOrder) (s : Deployment cap) : Act → Prop
  | .connect cookie pidTgid ctx => s.SafeConnect bo pidTgid cookie ctx
  | _ => True

instance (bo : ByteOrder) (s : Deployment cap) : ∀ a, Decidable (s.SafeStep bo a)
  | .connect _ _ _ => by unfold SafeStep SafeConnect; infer_instance
  | .boot | .establish _ _ _ | .sockOps _ _ | .close _ | .accept _ | .drop _ | .query _ _
  | .getsockopt _ => isTrue trivial

/-- A call that the hook redirects comes after `map_config` was written, on a little-endian
build. -/
def ConfiguredStep (bo : ByteOrder) (s : Deployment cap) : Act → Prop
  | .connect _ pidTgid ctx =>
    s.RedirectsCall bo pidTgid ctx → .writeConfig ∉ s.todo ∧ bo = .little
  | _ => True

theorem Booting.safeConnect_iff (hb : Booting pid s) (pidTgid : BitVec 64) (cookie : Cookie)
    (ctx : BpfSockAddr) :
    s.SafeConnect bo pidTgid cookie ctx ↔
      (s.RedirectsCall bo pidTgid ctx → .writeConfig ∉ s.todo ∧ bo = .little) := by
  unfold SafeConnect
  by_cases hr : s.RedirectsCall bo pidTgid ctx
  · have hne := hb.rewritten_ne hr
    rw [connectHook_of_redirects cookie hr]
    constructor
    · rintro ⟨hsafe, -⟩ -
      exact (hb.rewritten_sinPort_iff ctx).1 (hsafe hne).2.2
    · intro h
      obtain ⟨hw, hbo⟩ := h hr
      exact ⟨fun _ => ⟨hb.listening_of_configured hw, rfl,
        (hb.rewritten_sinPort_iff ctx).2 ⟨hw, hbo⟩⟩, fun hm => absurd hm hw⟩
  · rw [connectHook_of_not_redirects cookie hr]
    exact ⟨fun _ h => absurd h hr, fun _ => ⟨fun h => absurd rfl h, fun _ => rfl⟩⟩

/-- **Start-up safety.** The calls of a run are all safe exactly when none of them is redirected
before `map_config` is written, on a little-endian build. -/
theorem startUp_safe_iff (bo : ByteOrder) (pid : BitVec 64) (cap : ℕ) (as : List Act) :
    (system bo pid cap).Steps (SafeStep bo) initial as ↔
      (system bo pid cap).Steps (ConfiguredStep bo) initial as := by
  refine Runs.System.steps_congr (fun s a hs => ?_) Runs.System.Reachable.initial
  cases a with
  | connect cookie pidTgid ctx => exact (booting_of_reachable hs).safeConnect_iff pidTgid cookie ctx
  | _ => exact Iff.rfl

/-- A process of id 1000 connects to `10.0.0.1:9000` between the first two steps of the start-up
and is sent to port 0. -/
theorem startUp_unsafe :
    ¬ ∀ as, (system .little 4242 maxConnections).Steps (SafeStep .little) initial as := by
  intro h
  have := h [.boot, .connect 7 (1000 <<< 32) (.ofConnect .little 0x0a000001 9000)]
  revert this
  decide

end Deployment

end AutomaticCache
