import Mathlib.Logic.Function.Basic
import Mathlib.Data.List.Nodup

/-!
# Intrusive singly linked lists in a memory

The cells of a memory carry their own link. `Links next mem head nodes` says
that following the links from `head` visits exactly `nodes`, in order, and
then ends. A chain reads the memory at its nodes only, so a write elsewhere
leaves it alone; that is the frame rule every user of the memory needs.
-/

namespace Campix.Lib.Chain

set_option autoImplicit false

variable {Addr Cell : Type*} {next : Cell → Option Addr}

def Links (next : Cell → Option Addr) (mem : Addr → Cell) : Option Addr → List Addr → Prop
  | head, [] => head = none
  | head, node :: nodes => head = some node ∧ Links next mem (next (mem node)) nodes

theorem links_frame {mem after : Addr → Cell} {head : Option Addr} {nodes : List Addr}
    (same : ∀ node ∈ nodes, next (after node) = next (mem node))
    (links : Links next mem head nodes) : Links next after head nodes := by
  induction nodes generalizing head with
  | nil => exact links
  | cons node nodes ih =>
      refine ⟨links.1, ?_⟩
      rw [same node List.mem_cons_self]
      exact ih (fun other member => same other (List.mem_cons_of_mem _ member)) links.2

theorem links_inside {mem : Addr → Cell} {head : Option Addr} {nodes : List Addr}
    (links : Links next mem head nodes) {node target : Addr} (member : node ∈ nodes)
    (linked : next (mem node) = some target) : target ∈ nodes := by
  induction nodes generalizing head with
  | nil => exact absurd member (by simp)
  | cons first nodes ih =>
      rcases List.mem_cons.mp member with rfl | member
      · cases nodes with
        | nil => exact absurd (links.2.symm.trans linked) (by simp)
        | cons second nodes =>
            have same : second = target := Option.some.inj (links.2.1.symm.trans linked)
            rw [same]
            exact List.mem_cons_of_mem _ List.mem_cons_self
      · exact List.mem_cons_of_mem _ (ih links.2 member)

theorem links_unique {mem : Addr → Cell} {head : Option Addr} {left right : List Addr}
    (one : Links next mem head left) (other : Links next mem head right) : left = right := by
  induction left generalizing head right with
  | nil =>
      obtain rfl : head = none := one
      cases right with
      | nil => rfl
      | cons node nodes => exact absurd other.1 (by simp)
  | cons node nodes ih =>
      obtain ⟨rfl, rest⟩ := one
      cases right with
      | nil => exact absurd other (by simp [Links])
      | cons first others =>
          obtain ⟨same, later⟩ := other
          obtain rfl : node = first := Option.some.inj same
          rw [ih rest later]

theorem links_none_iff {mem : Addr → Cell} {nodes : List Addr} :
    Links next mem none nodes ↔ nodes = [] := by
  cases nodes with
  | nil => simp [Links]
  | cons node nodes => simp [Links]

end Campix.Lib.Chain
