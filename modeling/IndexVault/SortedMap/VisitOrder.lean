import IndexVault.SortedMap

namespace IndexVault.SortedMap

/-- An order in which the lines of a map are visited, chosen for every map. A hash map hands out its lines
in such an order of its own. -/
structure VisitOrder (α : Type) [Ord α] where
  lines {β : Type} : SortedMap α β → List (α × β)
  perm {β : Type} (m : SortedMap α β) : (lines m).Perm m.toList

namespace VisitOrder

variable {α : Type} [Ord α]

def ascending : VisitOrder α := ⟨toList, fun _ => List.Perm.refl _⟩

def descending : VisitOrder α := ⟨fun m => m.toList.reverse, fun m => m.toList.reverse_perm⟩

end VisitOrder

end IndexVault.SortedMap
