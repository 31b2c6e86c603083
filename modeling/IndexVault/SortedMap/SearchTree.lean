import IndexVault.SortedMap.Lines

/-! Search trees with red and black nodes. A red node has no red child and every way down meets the
same number of black nodes, so no way down is more than twice as long as another. What the colours
do is seen in speed alone: a tree is read through its lines, and on ascending lines insertion and
look-up are those of the list (`lines_insert`, `find?_eq`). -/
namespace IndexVault

inductive SearchTree.Colour where
  | red
  | black

/-- A tree whose lines are read from left to right. -/
inductive SearchTree (α β : Type) where
  | leaf
  | node (colour : SearchTree.Colour) (left : SearchTree α β) (key : α) (value : β)
    (right : SearchTree α β)

namespace SearchTree

open SortedMap

variable {α β : Type}

def lines : SearchTree α β → List (α × β)
  | leaf => []
  | node _ left key value right => left.lines ++ (key, value) :: right.lines

/-- A black node whose left part has just grown. -/
def balanceLeft : SearchTree α β → α → β → SearchTree α β → SearchTree α β
  -- Two red nodes in a row are made children of a red one.
  | node .red (node .red a k₁ v₁ b) k₂ v₂ c, k₃, v₃, d
  | node .red a k₁ v₁ (node .red b k₂ v₂ c), k₃, v₃, d =>
    node .red (node .black a k₁ v₁ b) k₂ v₂ (node .black c k₃ v₃ d)
  | left, key, value, right => node .black left key value right

/-- A black node whose right part has just grown. -/
def balanceRight : SearchTree α β → α → β → SearchTree α β → SearchTree α β
  | a, k₁, v₁, node .red (node .red b k₂ v₂ c) k₃ v₃ d
  | a, k₁, v₁, node .red b k₂ v₂ (node .red c k₃ v₃ d) =>
    node .red (node .black a k₁ v₁ b) k₂ v₂ (node .black c k₃ v₃ d)
  | left, key, value, right => node .black left key value right

/-- A node whose left part has just grown. -/
def grownLeft (colour : Colour) (left : SearchTree α β) (key : α) (value : β)
    (right : SearchTree α β) : SearchTree α β :=
  match colour with
  | .red => node .red left key value right
  | .black => balanceLeft left key value right

/-- A node whose right part has just grown. -/
def grownRight (colour : Colour) (left : SearchTree α β) (key : α) (value : β)
    (right : SearchTree α β) : SearchTree α β :=
  match colour with
  | .red => node .red left key value right
  | .black => balanceRight left key value right

def blackened : SearchTree α β → SearchTree α β
  | leaf => leaf
  | node _ left key value right => node .black left key value right

/-- Turning a tree about changes the colours of nodes, not the lines. -/
theorem lines_balanceLeft (l : SearchTree α β) (k : α) (v : β) (r : SearchTree α β) :
    (balanceLeft l k v r).lines = l.lines ++ (k, v) :: r.lines := by
  unfold balanceLeft
  split <;> simp [lines]

theorem lines_balanceRight (l : SearchTree α β) (k : α) (v : β) (r : SearchTree α β) :
    (balanceRight l k v r).lines = l.lines ++ (k, v) :: r.lines := by
  unfold balanceRight
  split <;> simp [lines]

theorem lines_grownLeft (c : Colour) (l : SearchTree α β) (k : α) (v : β) (r : SearchTree α β) :
    (grownLeft c l k v r).lines = l.lines ++ (k, v) :: r.lines := by
  cases c
  · rfl
  · exact lines_balanceLeft l k v r

theorem lines_grownRight (c : Colour) (l : SearchTree α β) (k : α) (v : β) (r : SearchTree α β) :
    (grownRight c l k v r).lines = l.lines ++ (k, v) :: r.lines := by
  cases c
  · rfl
  · exact lines_balanceRight l k v r

theorem lines_blackened (t : SearchTree α β) : t.blackened.lines = t.lines := by
  cases t <;> rfl

variable [Ord α]

def find? (k : α) : SearchTree α β → Option β
  | leaf => none
  | node _ left key value right =>
    match compare k key with
    | .lt => find? k left
    | .eq => some value
    | .gt => find? k right

/-- Writes a line; the root may be left red above a red node. -/
def insertBelow (k : α) (v : β) : SearchTree α β → SearchTree α β
  | leaf => node .red leaf k v leaf
  | node colour left key value right =>
    match compare k key with
    | .lt => grownLeft colour (insertBelow k v left) key value right
    | .eq => node colour left k v right
    | .gt => grownRight colour left key value (insertBelow k v right)

/-- The tree with one line written; a line with the same key is replaced. -/
def insert (k : α) (v : β) (t : SearchTree α β) : SearchTree α β :=
  (insertBelow k v t).blackened

section

variable [Std.TransOrd α]

/-- Where the lines ascend, a tree finds what its lines hold. -/
theorem find?_eq (k : α) {t : SearchTree α β} (h : Ascending t.lines) :
    t.find? k = lineValue? k t.lines := by
  induction t with
  | leaf => rfl
  | node c l key value r ihl ihr =>
    have hl : Ascending l.lines := (List.pairwise_append.1 h).1
    have hr : Ascending r.lines := (List.pairwise_cons.1 (List.pairwise_append.1 h).2.1).2
    rw [find?, lines, lineValue?_append, lineValue?]
    -- the comparison with the root rules out the lines of one side, or of both
    cases hk : compare k key with
    | lt =>
      have hnone : lineValue? k r.lines = none := lineValue?_eq_none fun y hy => by
        rw [lt_of_ascending_append h (by simp [hk]) y hy]
        decide
      simp [ihl hl, hnone]
    | eq =>
      have hnone : lineValue? k l.lines = none := lineValue?_eq_none fun y hy => by
        rw [gt_of_ascending_append h (by simp [hk]) y hy]
        decide
      simp [hnone]
    | gt =>
      have hnone : lineValue? k l.lines = none := lineValue?_eq_none fun y hy => by
        rw [gt_of_ascending_append h (by simp [hk]) y hy]
        decide
      simp [ihr hr, hnone]

theorem lines_insertBelow (k : α) (v : β) {t : SearchTree α β} (h : Ascending t.lines) :
    (insertBelow k v t).lines = insertLine k v t.lines := by
  induction t with
  | leaf => rfl
  | node c l key value r ihl ihr =>
    have hl : Ascending l.lines := (List.pairwise_append.1 h).1
    have hr : Ascending r.lines := (List.pairwise_cons.1 (List.pairwise_append.1 h).2.1).2
    rw [insertBelow, lines]
    cases hk : compare k key with
    | lt =>
      have happ := insertLine_append_of_lt v l.lines (x := (key, value)) hk r.lines
      simp only [lines_grownLeft, ihl hl, happ]
    | eq =>
      have hgt := gt_of_ascending_append h (k := k) (by simp [hk])
      simp only [lines, insertLine_append_of_gt v hgt, insertLine, hk]
    | gt =>
      have hgt := gt_of_ascending_append h (k := k) (by simp [hk])
      simp only [lines_grownRight, ihr hr, insertLine_append_of_gt v hgt, insertLine, hk]

/-- On ascending lines an insertion is that of the list. -/
theorem lines_insert (k : α) (v : β) {t : SearchTree α β} (h : Ascending t.lines) :
    (t.insert k v).lines = insertLine k v t.lines := by
  rw [insert, lines_blackened, lines_insertBelow k v h]

end

end SearchTree

end IndexVault
