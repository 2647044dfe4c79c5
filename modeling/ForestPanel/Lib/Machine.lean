import ForestPanel.Lib.Decimal

/-!
# Signed 64-bit arithmetic

A sum or a product that leaves the range wraps around. A `Checked` result remembers
whether that happened on the way to it, so one translation of a computation answers
both what it returns and whether it overflows.
-/
namespace Machine

open Decimal

/-- A result, and whether every operation before it stayed in the range. -/
structure Checked (α : Type) where
  value : α
  exact : Bool
deriving Repr, DecidableEq

namespace Checked

variable {α β : Type}

instance : Monad Checked where
  pure a := ⟨a, true⟩
  bind x f := ⟨(f x.value).value, x.exact && (f x.value).exact⟩

@[simp] theorem value_pure (a : α) : (pure a : Checked α).value = a := rfl

@[simp] theorem exact_pure (a : α) : (pure a : Checked α).exact = true := rfl

@[simp] theorem value_bind (x : Checked α) (f : α → Checked β) :
    (x >>= f).value = (f x.value).value := rfl

@[simp] theorem exact_bind (x : Checked α) (f : α → Checked β) :
    (x >>= f).exact = (x.exact && (f x.value).exact) := rfl

@[simp] theorem value_map (f : α → β) (x : Checked α) : (f <$> x).value = f x.value := rfl

@[simp] theorem exact_map (f : α → β) (x : Checked α) : (f <$> x).exact = x.exact :=
  Bool.and_true x.exact

@[ext] theorem ext {x y : Checked α} (value : x.value = y.value) (exact' : x.exact = y.exact) :
    x = y := by
  cases x
  cases y
  simp_all

instance : LawfulMonad Checked := LawfulMonad.mk' Checked
  (fun x => Checked.ext rfl (Bool.and_true x.exact))
  (fun a f => Checked.ext rfl (Bool.true_and (f a).exact))
  (fun _ _ _ => Checked.ext rfl (Bool.and_assoc _ _ _))

end Checked

/-- The number in the range that is equal modulo `2 ^ 64`. -/
def wrap (n : Int) : Int := (n + 9223372036854775808) % 18446744073709551616 - 9223372036854775808

/-- What the processor makes of the exact result of an operation. -/
def word (n : Int) : Checked Int := ⟨wrap n, decide (Fits n)⟩

def add (a b : Int) : Checked Int := word (a + b)

def sub (a b : Int) : Checked Int := word (a - b)

def mul (a b : Int) : Checked Int := word (a * b)

theorem fits_wrap (n : Int) : Fits (wrap n) := by
  unfold Fits wrap
  omega

theorem wrap_of_fits {n : Int} (fits : Fits n) : wrap n = n := by
  unfold Fits at fits
  unfold wrap
  omega

theorem word_of_fits {n : Int} (fits : Fits n) : word n = pure n := by
  rw [word, wrap_of_fits fits, decide_eq_true fits]
  rfl

@[simp] theorem exact_word (n : Int) : (word n).exact = true ↔ Fits n := by
  simp [word]

end Machine
