import Mathlib.Data.List.Basic

namespace Seance.Lib

/-- A self-delimiting code: what has been put comes out again, whatever follows it. -/
structure Code (β α : Type) where
  put : α → List β
  get : List β → Option (α × List β)
  get_put : ∀ a rest, get (put a ++ rest) = some (a, rest)

namespace Code

variable {α γ β : Type}

/-- The code of values that others stand for. -/
def map (c : Code β α) (f : α → γ) (g : γ → α) (h : ∀ x, f (g x) = x) : Code β γ where
  put x := c.put (g x)
  get input := (c.get input).map (fun r => (f r.1, r.2))
  get_put x rest := by
    rw [c.get_put, Option.map_some, h]

def unit : Code β Unit where
  put _ := []
  get input := some ((), input)
  get_put _ _ := rfl

def pair (c : Code β α) (d : Code β γ) : Code β (α × γ) where
  put x := c.put x.1 ++ d.put x.2
  get input := (c.get input).bind (fun r => (d.get r.2).map (fun q => ((r.1, q.1), q.2)))
  get_put x rest := by
    rw [List.append_assoc, c.get_put, Option.bind_some, d.get_put]
    rfl

section Lists

variable (more : β) (c : Code β α)

/-- Each element is announced by the mark `more`; anything else ends the list. -/
def putList (stop : β) : List α → List β
  | [] => [stop]
  | x :: xs => more :: (c.put x ++ putList stop xs)

theorem length_lt_putList (stop : β) (xs : List α) : xs.length < (putList more c stop xs).length := by
  induction xs with
  | nil => simp [putList]
  | cons x xs ih =>
    simp only [putList, List.length_cons, List.length_append]
    omega

variable [DecidableEq β]

def getList : Nat → List β → Option (List α × List β)
  | 0, _ => none
  | _, [] => none
  | fuel + 1, mark :: input =>
    if mark = more then
      (c.get input).bind (fun r => (getList fuel r.2).map (fun q => (r.1 :: q.1, q.2)))
    else some ([], input)

theorem getList_putList {stop : β} (hne : stop ≠ more) (xs : List α) (rest : List β)
    {fuel : Nat} (h : xs.length < fuel) :
    getList more c fuel (putList more c stop xs ++ rest) = some (xs, rest) := by
  induction xs generalizing fuel with
  | nil =>
    cases fuel with
    | zero => omega
    | succ fuel => simp [putList, getList, hne]
  | cons x xs ih =>
    cases fuel with
    | zero => omega
    | succ fuel =>
      simp only [List.length_cons] at h
      simp only [putList, List.cons_append, List.append_assoc, getList, if_true]
      rw [c.get_put, Option.bind_some, ih (by omega)]
      rfl

def list (stop : β) (hne : stop ≠ more) : Code β (List α) where
  put := putList more c stop
  get input := getList more c input.length input
  get_put xs rest := by
    apply getList_putList more c hne
    rw [List.length_append]
    have hlt := length_lt_putList more c stop xs
    omega

end Lists

/-- A value or nothing, as a list of at most one. -/
def option [DecidableEq β] (more stop : β) (hne : stop ≠ more) (c : Code β α) :
    Code β (Option α) :=
  (c.list more stop hne).map List.head? Option.toList (by intro x; cases x <;> rfl)

/-- A number, by that many marks. -/
def nat [DecidableEq β] (more stop : β) (hne : stop ≠ more) : Code β Nat :=
  (unit.list more stop hne).map List.length (fun n => List.replicate n ())
    (by intro n; exact List.length_replicate)

/-- A whole message, which may be followed by nothing. -/
def read (c : Code β α) (input : List β) : Option α :=
  match c.get input with
  | some (a, []) => some a
  | _ => none

theorem read_put (c : Code β α) (a : α) : c.read (c.put a) = some a := by
  have h := c.get_put a []
  rw [List.append_nil] at h
  unfold read
  rw [h]

end Code

end Seance.Lib
