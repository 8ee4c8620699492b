import Mathlib.Data.List.Basic

/-! The cursor an ordered storage engine hands out: a place in a finite list, past
its end or before its start. Moving off either end makes it invalid; a call from
there in the other direction comes back. -/

namespace TmDb.Lib

/-- `within left right` stands on the first item of `right`, or past the end when
there is none; `left` has the items passed, the nearest first. -/
inductive Cursor (α : Type*) where
  | beforeStart (items : List α)
  | within (left right : List α)

namespace Cursor
variable {α : Type*}

def items : Cursor α → List α
  | .beforeStart items => items
  | .within left right => left.reverse ++ right

def current : Cursor α → Option α
  | .beforeStart _ => none
  | .within _ right => right.head?

def valid (cursor : Cursor α) : Bool := cursor.current.isSome

def first (cursor : Cursor α) : Cursor α := .within [] cursor.items

def last (cursor : Cursor α) : Cursor α :=
  match cursor.items.reverse with
  | [] => .within [] []
  | item :: left => .within left [item]

/-- Go to the first item that is not below the target. -/
def seek (cursor : Cursor α) (below : α → Bool) : Cursor α :=
  .within (cursor.items.takeWhile below).reverse (cursor.items.dropWhile below)

def next : Cursor α → Cursor α
  | .beforeStart items => .within [] items
  | .within left [] => .within left []
  | .within left (item :: right) => .within (item :: left) right

def prev : Cursor α → Cursor α
  | .beforeStart items => .beforeStart items
  | .within [] right => .beforeStart right
  | .within (item :: left) right => .within left (item :: right)

/-- The items from the current one on, in the direction of Next. -/
def forward : Cursor α → List α
  | .beforeStart _ => []
  | .within _ right => right

/-- The items from the current one on, in the direction of Prev. -/
def backward : Cursor α → List α
  | .within left (item :: _) => item :: left
  | _ => []

theorem current_eq_forward (cursor : Cursor α) : cursor.current = cursor.forward.head? := by
  cases cursor <;> rfl

theorem current_eq_backward (cursor : Cursor α) : cursor.current = cursor.backward.head? := by
  cases cursor with
  | beforeStart items => rfl
  | within left right => cases right <;> rfl

theorem forward_next {cursor : Cursor α} (valid : cursor.valid = true) : cursor.next.forward = cursor.forward.tail := by
  cases cursor with
  | beforeStart items => cases valid
  | within left right => cases right <;> rfl

theorem backward_prev {cursor : Cursor α} (valid : cursor.valid = true) :
    cursor.prev.backward = cursor.backward.tail := by
  cases cursor with
  | beforeStart items => cases valid
  | within left right =>
    cases right with
    | nil => cases valid
    | cons item right => cases left <;> rfl

@[simp] theorem items_seek (cursor : Cursor α) (below : α → Bool) : (cursor.seek below).items = cursor.items := by
  simp [seek, items]

@[simp] theorem forward_first (cursor : Cursor α) : cursor.first.forward = cursor.items := rfl

@[simp] theorem forward_seek (cursor : Cursor α) (below : α → Bool) :
    (cursor.seek below).forward = cursor.items.dropWhile below := rfl

@[simp] theorem backward_last (cursor : Cursor α) : cursor.last.backward = cursor.items.reverse := by
  unfold last
  cases found : cursor.items.reverse <;> rfl

/-- One step back from the target leads to the items below it, also from past the
end. -/
theorem backward_seek_prev (cursor : Cursor α) (below : α → Bool) :
    (cursor.seek below).prev.backward = (cursor.items.takeWhile below).reverse := by
  unfold seek
  cases (cursor.items.takeWhile below).reverse <;> rfl

/-- Going to the last item does as well when there is nothing to step back from. -/
theorem backward_below (cursor : Cursor α) (below : α → Bool) :
    (if (cursor.seek below).valid then (cursor.seek below).prev else (cursor.seek below).last).backward =
      (cursor.items.takeWhile below).reverse := by
  cases found : cursor.items.dropWhile below with
  | nil =>
    have all : cursor.items.takeWhile below = cursor.items := by
      simpa [found] using List.takeWhile_append_dropWhile (p := below) (l := cursor.items)
    simp [valid, current_eq_forward, found, all]
  | cons item right =>
    simp only [valid, current_eq_forward, forward_seek, found, List.head?_cons, Option.isSome_some, if_true]
    exact backward_seek_prev cursor below

end Cursor

section Ranges
variable {α : Type*} {test : α → Bool}

theorem takeWhile_eq_filter {items : List α}
    (falling : items.Pairwise fun first second => test second = true → test first = true) :
    items.takeWhile test = items.filter test := by
  induction items with
  | nil => rfl
  | cons item rest ih =>
    obtain ⟨head, tail⟩ := List.pairwise_cons.mp falling
    by_cases passes : test item = true
    · simp [passes, ih tail]
    · have gone : rest.filter test = [] := by
        rw [List.filter_eq_nil_iff]
        exact fun other member holds => passes (head other member holds)
      simp [passes, gone]

theorem dropWhile_eq_filter {items : List α}
    (falling : items.Pairwise fun first second => test second = true → test first = true) :
    items.dropWhile test = items.filter fun item => !test item := by
  induction items with
  | nil => rfl
  | cons item rest ih =>
    obtain ⟨head, tail⟩ := List.pairwise_cons.mp falling
    by_cases passes : test item = true
    · simp [passes, ih tail]
    · have kept : rest.filter (fun item => !test item) = rest := by
        rw [List.filter_eq_self]
        intro other member
        simpa using fun holds => passes (head other member holds)
      simp [passes, kept]

end Ranges
end TmDb.Lib
