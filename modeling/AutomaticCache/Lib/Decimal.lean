import AutomaticCache.Lib.Bytes
import Mathlib.Data.Nat.Digits.Defs

/-!
# Decimal numbers

How `strconv` writes an integer, and how it is read back: digits from the highest on, behind a `-`
if the number is negative.
-/

namespace Decimal

open Bytes

def digit (d : ℕ) : UInt8 := UInt8.ofNat (48 + d)

/-- `0` to `9`. -/
def IsDigit (b : UInt8) : Prop := 48 ≤ b.toNat ∧ b.toNat ≤ 57

instance : DecidablePred IsDigit := fun _ => inferInstanceAs (Decidable (_ ∧ _))

def readDigit (b : UInt8) : Option ℕ := if IsDigit b then some (b.toNat - 48) else none

def printNat (n : ℕ) : Bytes := if n = 0 then [digit 0] else (Nat.digits 10 n).reverse.map digit

def readNat (s : Bytes) : Option ℕ :=
  if s = [] then none else (s.mapM readDigit).map fun ds => Nat.ofDigits 10 ds.reverse

/-- `strconv.FormatInt`. -/
def printInt : ℤ → Bytes
  | .ofNat n => printNat n
  | .negSucc n => byte '-' :: printNat (n + 1)

/-- `strconv.ParseInt`, without its bounds. -/
def readInt : Bytes → Option ℤ
  | [] => none
  | b :: s =>
    if b = byte '-' then (readNat s).map fun n => -(n : ℤ)
    else if b = byte '+' then (readNat s).map fun n => (n : ℤ)
    else (readNat (b :: s)).map fun n => (n : ℤ)

/-! ## Digits -/

theorem toNat_digit {d : ℕ} (hd : d < 10) : (digit d).toNat = 48 + d := by
  rw [digit, UInt8.toNat_ofNat']
  omega

theorem isDigit_digit {d : ℕ} (hd : d < 10) : IsDigit (digit d) := by
  rw [IsDigit, toNat_digit hd]
  omega

theorem readDigit_digit {d : ℕ} (hd : d < 10) : readDigit (digit d) = some d := by
  rw [readDigit, if_pos (isDigit_digit hd), toNat_digit hd, Nat.add_sub_cancel_left]

theorem mapM_readDigit {ds : List ℕ} (hds : ∀ d ∈ ds, d < 10) :
    (ds.map digit).mapM readDigit = some ds := by
  induction ds with
  | nil => rfl
  | cons d ds ih =>
    obtain ⟨hd, hds⟩ := List.forall_mem_cons.1 hds
    rw [List.map_cons, List.mapM_cons, readDigit_digit hd, ih hds]
    rfl

/-! ## Numbers -/

/-- The digits that are printed. -/
theorem printNat_eq (n : ℕ) : ∃ ds, ds ≠ [] ∧ (∀ d ∈ ds, d < 10) ∧
    Nat.ofDigits 10 ds.reverse = n ∧
    printNat n = ds.map digit := by
  by_cases hn : n = 0
  · exact ⟨[0], List.cons_ne_nil _ _, List.forall_mem_singleton.2 (Nat.succ_pos 9),
      hn.symm ▸ rfl, if_pos hn⟩
  · refine ⟨(Nat.digits 10 n).reverse, ?_, fun d hd => ?_, ?_, if_neg hn⟩
    · rw [ne_eq, List.reverse_eq_nil_iff]
      exact Nat.digits_ne_nil_iff_ne_zero.2 hn
    · exact Nat.digits_lt_base (Nat.le_add_left 2 8) (List.mem_reverse.1 hd)
    · rw [List.reverse_reverse, Nat.ofDigits_digits]

theorem isDigit_of_mem_printNat {n : ℕ} {b : UInt8} (hb : b ∈ printNat n) : IsDigit b := by
  obtain ⟨ds, -, hds, -, hprint⟩ := printNat_eq n
  rw [hprint] at hb
  obtain ⟨d, hd, rfl⟩ := List.mem_map.1 hb
  exact isDigit_digit (hds d hd)

theorem readNat_printNat (n : ℕ) : readNat (printNat n) = some n := by
  obtain ⟨ds, hne, hds, hn, hprint⟩ := printNat_eq n
  rw [hprint, readNat, if_neg (mt List.map_eq_nil_iff.1 hne), mapM_readDigit hds,
    Option.map_some, hn]

theorem isDigit_or_of_mem_printInt {z : ℤ} {b : UInt8} (hb : b ∈ printInt z) :
    b = byte '-' ∨ IsDigit b := by
  cases z with
  | ofNat n => exact .inr (isDigit_of_mem_printNat hb)
  | negSucc n => exact (List.mem_cons.1 hb).imp_right isDigit_of_mem_printNat

/-- Other symbols do not occur. -/
theorem not_mem_printInt {z : ℤ} {b : UInt8} (hb : b ≠ byte '-') (hdigit : ¬IsDigit b) :
    b ∉ printInt z :=
  fun h => (isDigit_or_of_mem_printInt h).elim hb hdigit

theorem readInt_printInt (z : ℤ) : readInt (printInt z) = some z := by
  cases z with
  | ofNat n =>
    obtain ⟨b, s, hs⟩ := List.exists_cons_of_ne_nil fun h : printNat n = [] => by
      have := readNat_printNat n
      rw [h] at this
      cases this
    have hb : IsDigit b := isDigit_of_mem_printNat (hs ▸ List.mem_cons_self)
    have hminus : b ≠ byte '-' := fun h => absurd (h ▸ hb) (by decide)
    have hplus : b ≠ byte '+' := fun h => absurd (h ▸ hb) (by decide)
    rw [printInt, hs, readInt, if_neg hminus, if_neg hplus, ← hs, readNat_printNat]
    rfl
  | negSucc n =>
    rw [printInt, readInt, if_pos rfl, readNat_printNat]
    rfl

end Decimal
