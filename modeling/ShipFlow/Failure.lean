import ShipFlow.Interleaving.Coupling
import ShipFlow.Relational.Table

/-! What the services of the backend share: identifiers, points in time, plans, and
the exceptions a request can end with. -/

namespace ShipFlow
open Interleaving

/-- A UUID of the database; `uuidv7()` never returns the same one twice. -/
abbrev Id := Nat

/-- A `Date`, in milliseconds. -/
abbrev Time := Int

def seconds (n : Int) : Int := n * 1000
def minutes (n : Int) : Int := n * 60 * 1000
def hours (n : Int) : Int := n * 60 * 60 * 1000
def days (n : Int) : Int := n * 24 * 60 * 60 * 1000

inductive PlanCode where
  | free
  | pro
  deriving DecidableEq, Repr

inductive HttpStatus where
  | badRequest
  | unauthorized
  | paymentRequired
  | forbidden
  | notFound
  | conflict
  | gone
  | serviceUnavailable
  deriving DecidableEq, Repr

inductive Failure where
  | http (status : HttpStatus) (message : String)
  /-- P2002 -/
  | uniqueConstraint
  /-- P2025 -/
  | recordNotFound
  | constraint
  | error (message : String)
  deriving DecidableEq, Repr

instance : Relational.Failures Failure where
  uniqueViolation := .uniqueConstraint
  checkViolation := .constraint
  recordNotFound := .recordNotFound

namespace Failure

def isUniqueConstraintError : Failure → Bool
  | .uniqueConstraint => true
  | _ => false

def isUnauthorized : Failure → Bool
  | .http .unauthorized _ => true
  | _ => false

end Failure

/-- The characters of the class `\s`. -/
def isWhiteSpace (c : Char) : Bool :=
  (9 ≤ c.toNat && c.toNat ≤ 13) || (0x2000 ≤ c.toNat && c.toNat ≤ 0x200a) ||
  [0x20, 0xa0, 0x1680, 0x2028, 0x2029, 0x202f, 0x205f, 0x3000, 0xfeff].contains c.toNat

def trim (s : String) : String :=
  String.ofList (((s.toList.dropWhile isWhiteSpace).reverse.dropWhile isWhiteSpace).reverse)

/-- A store whose rows get their identifiers from `uuidv7()`. -/
class HasIds (σ : Type) where
  nextId : σ → Id
  takeId : σ → σ

def uuidv7 {σ ε : Type} [HasIds σ] : Transaction σ ε Id :=
  fun s => .ok (HasIds.nextId s, HasIds.takeId s)

@[simp] theorem uuidv7_ok {σ ε : Type} [HasIds σ] {s s' : σ} {id : Id} :
    (uuidv7 : Transaction σ ε Id) s = .ok (id, s') ↔
      id = HasIds.nextId s ∧ s' = HasIds.takeId s := by
  simp [uuidv7, eq_comm]

/-- Two stores hand out identifiers of their own. -/
theorem uuidv7_coupled {σ ε α : Type} [HasIds σ] {R : α → σ → α → σ → Prop}
    {k k' : Id → Transaction σ ε α} {s t : σ}
    (h : Transaction.Coupled R (k (HasIds.nextId s)) (k' (HasIds.nextId t)) (HasIds.takeId s)
      (HasIds.takeId t)) : Transaction.Coupled R (uuidv7 >>= k) (uuidv7 >>= k') s t := h

end ShipFlow
