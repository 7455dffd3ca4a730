/-!
This module contains ways to sort as the questions that they ask: whether one element comes before
another one. The answers need not belong to an order. What a sort makes of those that contradict
each other is up to it, and it may notice that and give up.
-/

namespace Edm

inductive Sorter (β γ : Type) where
  | done (result : γ)
  | giveUp
  | ask (x y : β) (next : Bool → Sorter β γ)

namespace Sorter

variable {β γ δ ε : Type}

def bind (t : Sorter β γ) (f : γ → Sorter β δ) : Sorter β δ :=
  match t with
  | done result => f result
  | giveUp => giveUp
  | ask x y next => ask x y fun answer => (next answer).bind f

instance : Monad (Sorter β) where
  pure := done
  bind := bind

/--
Answer the questions by comparing the elements. A comparison that fails counts as a result as well;
the first failure is kept.
-/
def run (cmp : β → β → Option ε × Ordering) : Sorter β γ → Option ε → Option ε × Option γ
  | done result, failure? => (failure?, some result)
  | giveUp, failure? => (failure?, none)
  | ask x y next, failure? =>
    let (failed?, o) := cmp x y
    (next (o == .lt)).run cmp (failure?.or failed?)

def less (x y : β) : Sorter β Bool := ask x y done

/-! ### Insertion -/

/-- Put `x` behind all elements that it does not come before; the elements are given in reverse. -/
def insertReversed (x : β) : List β → Sorter β (List β)
  | [] => return [x]
  | y :: ys => do
    if ← less x y then return y :: (← insertReversed x ys) else return x :: y :: ys

def insertAll (sorted xs : List β) : Sorter β (List β) :=
  List.reverse <$> xs.foldlM (fun ys x => insertReversed x ys) sorted.reverse

/-! ### Merging -/

/-- Take elements from the fronts of two lists, where `second` tells when from the second one. -/
def mergeBy (second : β → β → Sorter β Bool) : List β → List β → Sorter β (List β)
  | x :: xs, y :: ys => do
    if ← second x y then return y :: (← mergeBy second (x :: xs) ys)
    else return x :: (← mergeBy second xs (y :: ys))
  | [], ys => return ys
  | xs, [] => return xs
termination_by xs ys => xs.length + ys.length

/-- Merge two sorted lists, from the front if the first one is not longer, and else from the back. -/
def merge (xs ys : List β) : Sorter β (List β) :=
  if xs.length ≤ ys.length then mergeBy (fun x y => less y x) xs ys
  else List.reverse <$> mergeBy less ys.reverse xs.reverse

structure Ends (β : Type) where
  front : List β
  left : List β
  right : List β
  leftReversed : List β
  rightReversed : List β
  back : List β

/-- Take `n` elements at the front and `n` at the back of two lists, which are given in reverse
too. -/
def takeEnds : (n : Nat) → (left right leftReversed rightReversed : List β) → Sorter β (Ends β)
  | n + 1, x :: xs, y :: ys, x' :: xs', y' :: ys' => do
    let front ← less y x
    let back ← less y' x'
    let ends ← takeEnds n (if front then x :: xs else xs) (if front then ys else y :: ys)
      (if back then xs' else x' :: xs') (if back then y' :: ys' else ys')
    return { ends with
      front := (if front then y else x) :: ends.front
      back := ends.back ++ [if back then x' else y'] }
  | _, left, right, leftReversed, rightReversed =>
    return ⟨[], left, right, leftReversed, rightReversed, []⟩

/--
Merge two sorted lists of the same length from both ends, where the second one may be longer by one
element. The ends have to meet, with nothing between them but that element.
-/
def mergeEnds (xs ys : List β) : Sorter β (List β) := do
  let ends ← takeEnds xs.length xs ys xs.reverse ys.reverse
  let fromLeft := xs.length - ends.left.length
  let fromRight := ys.length - ends.right.length
  let (middle, fromLeft, fromRight) :=
    if xs.length = ys.length then ([], fromLeft, fromRight)
    else if fromLeft < ends.leftReversed.length then (ends.left.take 1, fromLeft + 1, fromRight)
    else (ends.right.take 1, fromLeft, fromRight + 1)
  if fromLeft = ends.leftReversed.length ∧ fromRight = ends.rightReversed.length then
    return ends.front ++ middle ++ ends.back
  else giveUp

/-! ### Sorting -/

def sortTwo (x y : β) : Sorter β (β × β) := do
  if ← less y x then return (y, x) else return (x, y)

/-- Sort two pairs, find the first and the last of the four, and sort those that are left. -/
def sortFour (a b c d : β) : Sorter β (List β) := do
  let (a, b) ← sortTwo a b
  let (c, d) ← sortTwo c d
  let isFirst ← less c a
  let isLast ← less d b
  let (first, x, y, last) :=
    match isFirst, isLast with
    | false, false => (a, b, c, d)
    | false, true => (a, c, d, b)
    | true, false => (c, a, b, d)
    | true, true => (c, a, d, b)
  let (x, y) ← sortTwo x y
  return [first, x, y, last]

/-- Some of the elements sorted, which are the first four if `four` holds, and the others as they
are. -/
def sortFront (four : Bool) : List β → Sorter β (List β × List β)
  | a :: b :: c :: d :: xs =>
    if four then return (← sortFour a b c d, xs) else return ([a], b :: c :: d :: xs)
  | xs => return (xs.take 1, xs.drop 1)

def sortHalves (xs : List β) : Sorter β (List β) := do
  let four : Bool := 8 ≤ xs.length
  let (front, rest) ← sortFront four (xs.take (xs.length / 2))
  let (front', rest') ← sortFront four (xs.drop (xs.length / 2))
  let left ← insertAll front rest
  let right ← insertAll front' rest'
  mergeEnds left right

/-- The elements behind `x` that go on downwards, or else the ones that do not. -/
def takeRun (down : Bool) (x : β) : List β → Sorter β (List β × List β)
  | [] => return ([], [])
  | y :: ys => do
    if (← less y x) = down then
      let (run, rest) ← takeRun down y ys
      return (y :: run, rest)
    else return ([], y :: ys)

/-- The elements in front that are in order, or in the opposite order without equal ones. -/
def findRun : List β → Sorter β (List β × List β)
  | x :: y :: ys => do
    let down ← less y x
    let (run, rest) ← takeRun down y ys
    return (if down then (x :: y :: run).reverse else x :: y :: run, rest)
  | xs => return (xs, [])

def chunk : Nat := 32

def sortChunk (xs : List β) : Sorter β (List β × List β) :=
  return (← sortHalves (xs.take chunk), xs.drop chunk)

/-- A sorted list of elements from the front: what is in order, if that is long enough. -/
def nextRun (least : Nat) (xs : List β) : Sorter β (List β × List β) := do
  if least ≤ xs.length then
    let (run, rest) ← findRun xs
    if least ≤ run.length then return (run, rest) else sortChunk xs
  else sortChunk xs

def sortRuns (least : Nat) : (n : Nat) → List β → Sorter β (List β)
  | n + 1, x :: xs => do
    let (run, rest) ← nextRun least (x :: xs)
    merge run (← sortRuns least n rest)
  | _, xs => return xs

def insertionLimit : Nat := 20

def sort (xs : List β) : Sorter β (List β) :=
  if xs.length ≤ insertionLimit then insertAll [] xs
  else sortRuns (min (xs.length - xs.length / 2) 64) xs.length xs

end Sorter

end Edm
