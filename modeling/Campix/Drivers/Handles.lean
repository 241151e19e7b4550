import Mathlib.Data.List.Basic

/-!
# File handles of the VFS

`FileHandleAllocator` of `drivers/vfs.rs`. A handle is the address of a record on the
kernel heap, so the number of a closed handle may come back; which address the heap
returns is an argument here.
-/

namespace Campix.Drivers

set_option autoImplicit false

/-- The set of addresses, each with the record at it. -/
structure FileHandleAllocator (Data : Type) where
  handles : List (Nat × Data)

namespace FileHandleAllocator

variable {Data : Type}

def allocFileHandle (self : FileHandleAllocator Data) (address : Nat) (data : Data) :
    FileHandleAllocator Data where
  handles := (address, data) :: self.handles.filter fun handle => handle.1 ≠ address

def getHandleData (self : FileHandleAllocator Data) (handle : Nat) : Option Data :=
  (self.handles.find? fun item => item.1 = handle).map Prod.snd

def deallocFileHandle (self : FileHandleAllocator Data) (handle : Nat) :
    Bool × FileHandleAllocator Data :=
  if (self.getHandleData handle).isSome then
    (true, ⟨self.handles.filter fun item => item.1 ≠ handle⟩)
  else
    (false, self)

def Unused (self : FileHandleAllocator Data) (address : Nat) : Prop :=
  self.getHandleData address = none

def Distinct (self : FileHandleAllocator Data) : Prop := (self.handles.map Prod.fst).Nodup

def count (self : FileHandleAllocator Data) (p : Data → Bool) : Nat :=
  self.handles.countP fun item => p item.2

variable {self : FileHandleAllocator Data} {address handle : Nat} {data : Data}

theorem unused_iff : self.Unused address ↔ ∀ item ∈ self.handles, item.1 ≠ address := by
  unfold Unused getHandleData
  rw [Option.map_eq_none_iff, List.find?_eq_none]
  simp

theorem alloc_eq (unused : self.Unused address) (data : Data) :
    (self.allocFileHandle address data).handles = (address, data) :: self.handles := by
  unfold allocFileHandle
  rw [List.filter_eq_self.mpr]
  intro item member
  simpa using unused_iff.mp unused item member

theorem distinct_alloc (distinct : self.Distinct) (unused : self.Unused address) (data : Data) :
    (self.allocFileHandle address data).Distinct := by
  unfold Distinct
  rw [alloc_eq unused, List.map_cons, List.nodup_cons]
  refine ⟨?_, distinct⟩
  rw [List.mem_map]
  rintro ⟨item, member, same⟩
  exact unused_iff.mp unused item member same

theorem count_alloc (unused : self.Unused address) (data : Data) (p : Data → Bool) :
    (self.allocFileHandle address data).count p = self.count p + if p data then 1 else 0 := by
  rw [count, alloc_eq unused, List.countP_cons]
  rfl

theorem get_alloc (self : FileHandleAllocator Data) (address : Nat) (data : Data) (handle : Nat) :
    (self.allocFileHandle address data).getHandleData handle =
      if handle = address then some data else self.getHandleData handle := by
  unfold allocFileHandle getHandleData
  by_cases same : handle = address
  · subst same
    rw [if_pos rfl, List.find?_cons_of_pos (by simp)]
    rfl
  · rw [if_neg same, List.find?_cons_of_neg (by simpa using Ne.symm same), List.find?_filter]
    apply congrArg (Option.map Prod.snd)
    apply congrArg (fun p => List.find? p self.handles)
    funext item
    by_cases key : item.1 = handle
    · simp [key, same]
    · simp [key]

theorem get_dealloc (self : FileHandleAllocator Data) (address handle : Nat) :
    (self.deallocFileHandle address).2.getHandleData handle =
      if handle = address then none else self.getHandleData handle := by
  unfold deallocFileHandle
  cases found : self.getHandleData address with
  | none =>
      by_cases same : handle = address
      · rw [if_pos same, same]
        exact found
      · rw [if_neg same]
        rfl
  | some data =>
      simp only [Option.isSome_some, if_true]
      unfold getHandleData
      rw [List.find?_filter]
      by_cases same : handle = address
      · rw [if_pos same, same, Option.map_eq_none_iff, List.find?_eq_none]
        intro item _
        simp
      · rw [if_neg same]
        apply congrArg (Option.map Prod.snd)
        apply congrArg (fun p => List.find? p self.handles)
        funext item
        by_cases key : item.1 = handle
        · simp [key, same]
        · simp [key]

theorem mem_of_get (found : self.getHandleData handle = some data) :
    (handle, data) ∈ self.handles := by
  obtain ⟨item, search, rfl⟩ := Option.map_eq_some_iff.mp found
  have key : item.1 = handle := by simpa using List.find?_some search
  rw [← key]
  exact List.mem_of_find?_eq_some search

theorem dealloc_eq (found : self.getHandleData handle = some data) :
    self.deallocFileHandle handle = (true, ⟨self.handles.filter fun item => item.1 ≠ handle⟩) := by
  rw [deallocFileHandle, found]
  rfl

theorem distinct_filter (distinct : self.Distinct) (handle : Nat) :
    Distinct (⟨self.handles.filter fun item => item.1 ≠ handle⟩ : FileHandleAllocator Data) :=
  distinct.sublist (List.filter_sublist.map Prod.fst)

theorem count_filter (distinct : self.Distinct) (found : self.getHandleData handle = some data)
    (p : Data → Bool) :
    count (⟨self.handles.filter fun item => item.1 ≠ handle⟩ : FileHandleAllocator Data) p +
      (if p data then 1 else 0) = self.count p := by
  have member := mem_of_get found
  unfold Distinct at distinct
  change (self.handles.filter fun item => item.1 ≠ handle).countP (fun item => p item.2) + _ =
    self.handles.countP fun item => p item.2
  generalize self.handles = handles at distinct member
  induction handles with
  | nil => exact absurd member List.not_mem_nil
  | cons item handles ih =>
      rw [List.map_cons, List.nodup_cons] at distinct
      obtain ⟨apart, distinct⟩ := distinct
      rcases List.mem_cons.mp member with rfl | later
      · have others : handles.filter (fun item => item.1 ≠ handle) = handles := by
          apply List.filter_eq_self.mpr
          intro item inside
          have different : item.1 ≠ handle := fun same =>
            apart (List.mem_map.mpr ⟨item, inside, same⟩)
          exact decide_eq_true different
        rw [List.filter_cons_of_neg (by simp), others, List.countP_cons]
      · have different : item.1 ≠ handle := fun same =>
          apart (List.mem_map.mpr ⟨(handle, data), later, same.symm⟩)
        have rest := ih distinct later
        rw [List.filter_cons_of_pos (by simpa using different), List.countP_cons, List.countP_cons]
        omega

theorem count_pos (found : self.getHandleData handle = some data) {p : Data → Bool}
    (kind : p data = true) :
    0 < self.count p :=
  List.countP_pos_iff.mpr ⟨(handle, data), mem_of_get found, kind⟩

end FileHandleAllocator

end Campix.Drivers
