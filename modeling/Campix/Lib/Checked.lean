import Mathlib.Algebra.Group.Nat.Defs

/-!
# Arithmetic that stops

Operations on machine words that stop where a checked build does: on a result that
does not fit, on a shift by the whole width and on a division by zero. A computation
that stops this way has neither returned nor reported an error of its own.
-/

namespace Campix.Lib.Checked

set_option autoImplicit false

inductive Fault where
  | overflow
  | overlongShift
  | divisionByZero
  | unwrapped
  deriving DecidableEq

inductive Stop (Error : Type) where
  | fault (fault : Fault)
  | error (error : Error)

abbrev Machine (Error : Type) := Except (Stop Error)

variable {Error Value : Type}

def refuse (error : Error) : Machine Error Value := .error (.error error)

def mul (width left right : Nat) : Machine Error Nat :=
  if left * right < 2 ^ width then .ok (left * right) else .error (.fault .overflow)

def shl (width value shift : Nat) : Machine Error Nat :=
  if shift < width then .ok ((value <<< shift) % 2 ^ width) else .error (.fault .overlongShift)

def quot (left right : Nat) : Machine Error Nat :=
  if right = 0 then .error (.fault .divisionByZero) else .ok (left / right)

def remainder (left right : Nat) : Machine Error Nat :=
  if right = 0 then .error (.fault .divisionByZero) else .ok (left % right)

def quotCeil (left right : Nat) : Machine Error Nat :=
  if right = 0 then .error (.fault .divisionByZero) else .ok ((left + right - 1) / right)

/-- `NonZero::new(value).unwrap()`. -/
def nonZero (value : Nat) : Machine Error Nat :=
  if value = 0 then .error (.fault .unwrapped) else .ok value

/-- The computation returns or reports an error. -/
def Runs (result : Machine Error Value) : Prop := ∀ fault, result ≠ .error (.fault fault)

theorem runs_ok (value : Value) : Runs (.ok value : Machine Error Value) := by
  intro fault stopped
  cases stopped

theorem runs_refuse (error : Error) : Runs (refuse error : Machine Error Value) := by
  intro fault stopped
  cases stopped

theorem mul_of_lt {width left right : Nat} (bound : left * right < 2 ^ width) :
    (mul width left right : Machine Error Nat) = .ok (left * right) := by
  rw [mul, if_pos bound]

theorem mul_of_ge {width left right : Nat} (bound : 2 ^ width ≤ left * right) :
    (mul width left right : Machine Error Nat) = .error (.fault .overflow) := by
  rw [mul, if_neg (by omega)]

theorem shl_of_lt {width value shift : Nat} (bound : shift < width) :
    (shl width value shift : Machine Error Nat) = .ok ((value <<< shift) % 2 ^ width) := by
  rw [shl, if_pos bound]

theorem shl_of_ge {width value shift : Nat} (bound : width ≤ shift) :
    (shl width value shift : Machine Error Nat) = .error (.fault .overlongShift) := by
  rw [shl, if_neg (by omega)]

theorem quot_of_ne {left right : Nat} (positive : right ≠ 0) :
    (quot left right : Machine Error Nat) = .ok (left / right) := by
  rw [quot, if_neg positive]

theorem quot_ceil_of_ne {left right : Nat} (positive : right ≠ 0) :
    (quotCeil left right : Machine Error Nat) = .ok ((left + right - 1) / right) := by
  rw [quotCeil, if_neg positive]

theorem non_zero_of_ne {value : Nat} (positive : value ≠ 0) :
    (nonZero value : Machine Error Nat) = .ok value := by
  rw [nonZero, if_neg positive]

end Campix.Lib.Checked
