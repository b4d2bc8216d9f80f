import AgenticSoc.BlackboardFirewall
import Mathlib.Algebra.Order.Field.Rat
import Mathlib.Data.Finset.Sort
import Mathlib.Data.List.AList

/-!
# Running statistics and counters

Feature values in exact arithmetic. The functions of the standard library that exact
arithmetic does not fix are parameters: the square root and the logarithm, the texts of
timestamps and the lower-case forms.
-/
namespace FeatureStatistics

/-! The orders in which sets of texts and of numbers are listed. -/

instance text_trans : IsTrans String (fun a b => a ≤ b) := inferInstance
instance text_antisymm : Std.Antisymm (fun a b : String => a ≤ b) := inferInstance
instance text_total : Std.Total (fun a b : String => a ≤ b) := inferInstance
instance number_trans : IsTrans Nat (fun a b => a ≤ b) := inferInstance
instance number_antisymm : Std.Antisymm (fun a b : Nat => a ≤ b) := inferInstance
instance number_total : Std.Total (fun a b : Nat => a ≤ b) := inferInstance

structure Library where
  lowerCase : BlackboardFirewall.LowerCase
  sqrt : ℚ → ℚ
  log2 : ℚ → ℚ
  isoUtcFromNs : Int → String

/-- Welford's running statistics. -/
structure OnlineStats where
  n : Nat
  mean : ℚ
  m2 : ℚ
  mn : Option ℚ
  mx : Option ℚ
  deriving DecidableEq

namespace OnlineStats

def empty : OnlineStats := ⟨0, 0, 0, none, none⟩

def add (s : OnlineStats) (v : ℚ) : OnlineStats :=
  let n := s.n + 1
  let delta := v - s.mean
  let mean := s.mean + delta / n
  { n := n
    mean := mean
    m2 := s.m2 + delta * (v - mean)
    mn := match s.mn with
      | none => some v
      | some mn => if v < mn then some v else some mn
    mx := match s.mx with
      | none => some v
      | some mx => if mx < v then some v else some mx }

def addSome (s : OnlineStats) : Option ℚ → OnlineStats
  | none => s
  | some v => s.add v

end OnlineStats

/-- Average, maximum, minimum and standard deviation. -/
structure StatsRow where
  avg : Option ℚ
  max : Option ℚ
  min : Option ℚ
  std : Option ℚ
  deriving DecidableEq

def OnlineStats.asTuple (L : Library) (s : OnlineStats) : StatsRow :=
  if s.n = 0 then ⟨none, none, none, none⟩
  else ⟨some s.mean, s.mx, s.mn, some (if 2 ≤ s.n then L.sqrt (s.m2 / (s.n - 1 : Nat)) else 0)⟩

def statsOf (values : List ℚ) : OnlineStats := values.foldl OnlineStats.add .empty

/-- How often each key was counted. -/
abbrev Counter (κ : Type) := AList fun _ : κ => Nat

namespace Counter

variable {κ : Type} [DecidableEq κ]

def get (c : Counter κ) (k : κ) : Nat := (c.lookup k).getD 0

def bump (c : Counter κ) (k : κ) : Counter κ := c.insert k (c.get k + 1)

def values (c : Counter κ) : List Nat := c.entries.map fun e => e.2

def total (c : Counter κ) : Nat := c.values.sum

end Counter

def oneWhen (b : Bool) : Nat := if b then 1 else 0

/-- The set with an element that is there. -/
def insertSome {α : Type} [DecidableEq α] (x : Option α) (s : Finset α) : Finset α :=
  match x with
  | none => s
  | some x => insert x s

/-- An address that is there and not empty. -/
def nonEmpty (x : Option String) : Option String :=
  match x with
  | none => none
  | some x => if x = "" then none else some x

end FeatureStatistics
