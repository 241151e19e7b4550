import Campix.Ext2.Ways
import Mathlib.Data.Finset.Card
import Mathlib.Data.Finset.Union

/-!
# The tree of pointers of a file

The fifteen pointers of an inode are the roots of a tree whose inner nodes are tables and
whose leaves are data blocks. A block of the tree is named by a location and a place on
the way to it; two locations share the places up to which their ways take the same turns.
-/

namespace Campix.Ext2

set_option autoImplicit false

def Inode.pointer (inode : Inode) (place : Nat) : Nat :=
  if inside : place < 12 then inode.directBlockPointers ⟨place, inside⟩
  else if place = 12 then inode.singleIndirectBlockPointer
  else if place = 13 then inode.doubleIndirectBlockPointer
  else if place = 14 then inode.tripleIndirectBlockPointer
  else 0

/-- The number of the pointer where the way to a location starts. -/
def root : InodeReadingLocationInfo → Nat
  | .direct d => d
  | .single _ => 12
  | .double _ _ => 13
  | .triple _ _ _ => 14

def route (roots : Nat → Nat) (contents : Contents) (location : InodeReadingLocationInfo) :
    List Nat :=
  chase contents (roots (root location)) (turns location)

/-- The data blocks and tables that can be reached from the pointers of an inode. -/
def reachable (roots : Nat → Nat) (contents : Contents) (tableSize : Nat) : Finset Nat :=
  ((Finset.range (capacity tableSize)).biUnion fun k =>
    (route roots contents (locate tableSize k)).toFinset).erase 0

variable {roots rootsAfter : Nat → Nat} {contents contentsAfter : Contents} {tableSize : Nat}
variable {location other : InodeReadingLocationInfo}

theorem way_eq_route (inode : Inode) (contents : Contents) (digits : Digits tableSize location) :
    way inode contents location = route inode.pointer contents location := by
  have heads : head inode location = inode.pointer (root location) := by
    cases location with
    | direct d =>
        have inside : d < 12 := digits
        simp [head, Inode.pointer, root, inside]
    | single i => rfl
    | double i j => rfl
    | triple i j k => rfl
  unfold way route
  rw [heads]

theorem index_of_lt (digits : Digits tableSize location) :
    indexOf tableSize location < capacity tableSize := by
  unfold capacity
  cases location with
  | direct d =>
      have inside : d < 12 := digits
      simp only [indexOf]
      omega
  | single i =>
      have inside : i < tableSize := digits
      simp only [indexOf]
      omega
  | double i j =>
      have inside := two_digits_lt digits.1 digits.2
      simp only [indexOf]
      omega
  | triple i j k =>
      have low := two_digits_lt digits.2.1 digits.2.2
      have high := two_digits_lt digits.1 (show j < tableSize from digits.2.1)
      have outer : (i * tableSize + j) * tableSize + tableSize ≤ tableSize * tableSize *
          tableSize := by
        nlinarith
      have last : k < tableSize := digits.2.2
      have split : (i * tableSize + j) * tableSize = i * (tableSize * tableSize) + j *
          tableSize := by ring
      simp only [indexOf]
      omega

theorem mem_reachable {block : Nat} : block ∈ reachable roots contents tableSize ↔
    block ≠ 0 ∧ ∃ location, Digits tableSize location ∧ block ∈ route roots contents location := by
  unfold reachable
  simp only [Finset.mem_erase, Finset.mem_biUnion, Finset.mem_range, List.mem_toFinset]
  constructor
  · intro member
    obtain ⟨nonzero, k, inside, found⟩ := member
    exact ⟨nonzero, locate tableSize k, (index_of_locate inside).2, found⟩
  · intro member
    obtain ⟨nonzero, location, digits, found⟩ := member
    refine ⟨nonzero, indexOf tableSize location, index_of_lt digits, ?_⟩
    rw [locate_index_of location digits]
    exact found

theorem length_route : (route roots contents location).length = (turns location).length + 1 :=
  length_chase _ _

structure Shares (place : Nat) (location other : InodeReadingLocationInfo) : Prop where
  root : root location = root other
  turns : (turns location).take place = (turns other).take place

theorem shares_symm {place : Nat} (shares : Shares place location other) :
    Shares place other location :=
  ⟨shares.root.symm, shares.turns.symm⟩

theorem shares_trans {place : Nat} {third : InodeReadingLocationInfo}
    (first : Shares place location other)
    (second : Shares place other third) : Shares place location third :=
  ⟨first.root.trans second.root, first.turns.trans second.turns⟩

theorem shares_succ {place turn : Nat} (shares : Shares place location other)
    (here : (turns location)[place]? = some turn) (there : (turns other)[place]? = some turn) :
    Shares (place + 1) location other := by
  refine ⟨shares.root, ?_⟩
  rw [List.take_add_one, List.take_add_one, here, there, shares.turns]

theorem turns_length_eq (digits : Digits tableSize location) (otherDigits : Digits tableSize other)
    (same : root location = root other) : (turns location).length = (turns other).length := by
  cases location <;> cases other <;> simp_all [root, turns, Digits] <;> omega

theorem chase_take (place : Nat) : ∀ (turns : List Nat) (pointer : Nat),
    (chase contents pointer turns).take (place + 1) =
      (chase contents pointer (turns.take place)) := by
  induction place with
  | zero =>
      intro turns pointer
      cases turns with
      | nil => rfl
      | cons turn turns => rfl
  | succ place ih =>
      intro turns pointer
      cases turns with
      | nil => rfl
      | cons turn turns => rw [chase, List.take_succ_cons, ih, List.take_succ_cons, chase]

theorem shares_route {place : Nat} (shares : Shares place location other) :
    (route roots contents location).take (place + 1) = (route roots contents other).take
      (place + 1) := by
  unfold route
  rw [chase_take, chase_take, shares.root, shares.turns]

theorem shares_place {place before : Nat} (shares : Shares place location other)
    (le : before ≤ place) :
    (route roots contents location)[before]? = (route roots contents other)[before]? := by
  have same : (route roots contents location).take (place + 1) = _ := shares_route shares
  have part := congrArg (fun pointers => pointers[before]?) same
  simpa [List.getElem?_take, Nat.lt_succ_of_le le] using part

theorem chase_succ {turn : Nat} (turns : List Nat) : ∀ (pointer place found : Nat),
    (chase contents pointer turns)[place]? = some found → turns[place]? = some turn →
    (chase contents pointer turns)[place + 1]? =
      some (if found = 0 then 0 else entry (contents found) turn) := by
  induction turns with
  | nil =>
      intro pointer place found _ here
      exact absurd here (by simp)
  | cons first turns ih =>
      intro pointer place found at_ here
      rw [chase] at at_ ⊢
      cases place with
      | zero =>
          obtain rfl : pointer = found := by simpa using at_
          obtain rfl : first = turn := by simpa using here
          rw [List.getElem?_cons_succ, chase_head]
      | succ place =>
          rw [List.getElem?_cons_succ] at at_ here ⊢
          exact ih _ place found at_ here

theorem route_succ {place found turn : Nat}
    (at_ : (route roots contents location)[place]? = some found)
    (here : (turns location)[place]? = some turn) :
    (route roots contents location)[place + 1]? =
      some (if found = 0 then 0 else entry (contents found) turn) :=
  chase_succ (turns location) _ place found at_ here

theorem route_root : (route roots contents location)[0]? = some (roots (root location)) :=
  chase_head _ _

theorem route_place {place : Nat} (inside : place ≤ (turns location).length) :
    ∃ pointer, (route roots contents location)[place]? = some pointer :=
  ⟨_, List.getElem?_eq_getElem (by rw [length_route]; omega)⟩

theorem route_bound {place pointer : Nat}
    (found : (route roots contents location)[place]? = some pointer) :
    place ≤ (turns location).length := by
  have bound := (List.getElem?_eq_some_iff.mp found).1
  rw [length_route] at bound
  omega

theorem route_hole {hole place : Nat} (here : (route roots contents location)[hole]? = some 0)
    (behind : hole ≤ place) (inside : place ≤ (turns location).length) :
    (route roots contents location)[place]? = some 0 := by
  induction place with
  | zero =>
      obtain rfl : hole = 0 := by omega
      exact here
  | succ place ih =>
      by_cases first : hole = place + 1
      · rw [← first]
        exact here
      · obtain ⟨turn, turnHere⟩ : ∃ turn, (turns location)[place]? = some turn :=
          ⟨_, List.getElem?_eq_getElem (by omega)⟩
        rw [route_succ (ih (by omega) (by omega)) turnHere, if_pos rfl]

theorem reachable_of_place {place pointer : Nat} (digits : Digits tableSize location)
    (found : (route roots contents location)[place]? = some pointer) (nonzero : pointer ≠ 0) :
    pointer ∈ reachable roots contents tableSize :=
  mem_reachable.mpr ⟨nonzero, location, digits, List.mem_of_getElem? found⟩

theorem place_of_reachable {block : Nat} (member : block ∈ reachable roots contents tableSize) :
    block ≠ 0 ∧ ∃ location, ∃ place : Nat, Digits tableSize location ∧
      (route roots contents location)[place]? = some block := by
  obtain ⟨nonzero, location, digits, found⟩ := mem_reachable.mp member
  obtain ⟨place, at_⟩ := List.mem_iff_getElem?.mp found
  exact ⟨nonzero, location, place, digits, at_⟩

def Inner (roots : Nat → Nat) (contents : Contents) (tableSize block : Nat) : Prop :=
  block ≠ 0 ∧ ∃ location, ∃ place : Nat, Digits tableSize location ∧
    place < (turns location).length ∧
    (route roots contents location)[place]? = some block

/-- Where the tables are left alone, the ways are what they were. -/
theorem route_congr (kept : ∀ table, Inner roots contents tableSize table →
      contentsAfter table = contents table)
    (digits : Digits tableSize location) :
    route roots contentsAfter location = route roots contents location := by
  have places : ∀ place, place ≤ (turns location).length →
      (route roots contentsAfter location)[place]? = (route roots contents location)[place]? := by
    intro place
    induction place with
    | zero =>
        intro _
        rw [route_root, route_root]
    | succ place ih =>
        intro inside
        obtain ⟨pointer, found⟩ : ∃ pointer,
            (route roots contents location)[place]? = some pointer :=
          route_place (by omega)
        obtain ⟨turn, turnHere⟩ : ∃ turn, (turns location)[place]? = some turn :=
          ⟨_, List.getElem?_eq_getElem (by omega)⟩
        rw [route_succ found turnHere, route_succ ((ih (by omega)).trans found) turnHere]
        by_cases zero : pointer = 0
        · rw [if_pos zero, if_pos zero]
        · rw [kept pointer ⟨zero, location, place, digits, by omega, found⟩]
  apply List.ext_getElem?
  intro place
  by_cases inside : place ≤ (turns location).length
  · exact places place inside
  · rw [List.getElem?_eq_none (by rw [length_route]; omega),
      List.getElem?_eq_none (by rw [length_route]; omega)]

theorem reachable_congr (kept : ∀ table, Inner roots contents tableSize table →
      contentsAfter table = contents table) :
    reachable roots contentsAfter tableSize = reachable roots contents tableSize := by
  ext block
  rw [mem_reachable, mem_reachable]
  refine and_congr_right fun _ => exists_congr fun location => and_congr_right fun digits => ?_
  rw [route_congr kept digits]

def Distinct (roots : Nat → Nat) (contents : Contents) (tableSize : Nat) : Prop :=
  ∀ (location other : InodeReadingLocationInfo) (place otherPlace pointer : Nat),
    Digits tableSize location → Digits tableSize other →
    (route roots contents location)[place]? = some pointer →
    (route roots contents other)[otherPlace]? = some pointer → pointer ≠ 0 →
      place = otherPlace ∧ Shares place location other

def number (tableSize : Nat) : List Nat → Nat
  | [] => 0
  | turn :: turns => turn * tableSize ^ turns.length + number tableSize turns

theorem number_lt (turns : List Nat) : (∀ turn ∈ turns, turn < tableSize) →
    number tableSize turns < tableSize ^ turns.length := by
  induction turns with
  | nil =>
      intro _
      exact Nat.one_pos
  | cons turn turns ih =>
      intro small
      have first := small turn List.mem_cons_self
      have rest := ih fun each member => small each (List.mem_cons_of_mem _ member)
      calc
        turn * tableSize ^ turns.length + number tableSize turns
          < turn * tableSize ^ turns.length + tableSize ^ turns.length := by omega
        _ = (turn + 1) * tableSize ^ turns.length := by ring
        _ ≤ tableSize * tableSize ^ turns.length := Nat.mul_le_mul_right _ first
        _ = tableSize ^ (turns.length + 1) := by ring

theorem first_digit_le {first second length low high : Nat} (small : high < tableSize ^ length)
    (le : first * tableSize ^ length + low ≤ second * tableSize ^ length + high) : first ≤
    second := by
  by_contra larger
  have step : (second + 1) * tableSize ^ length ≤ first * tableSize ^ length :=
    Nat.mul_le_mul_right _ (by omega)
  have expand : (second + 1) * tableSize ^ length = second * tableSize ^ length + tableSize ^
      length := by
    ring
  omega

theorem take_between (low : List Nat) : ∀ (middle high : List Nat) (place : Nat),
    middle.length = low.length → high.length = low.length →
    (∀ turn ∈ low, turn < tableSize) → (∀ turn ∈ middle, turn < tableSize) →
    (∀ turn ∈ high, turn < tableSize) → number tableSize low ≤ number tableSize middle →
    number tableSize middle ≤ number tableSize high → low.take place = high.take place →
    middle.take place = high.take place := by
  induction low with
  | nil =>
      intro middle high place middleLength highLength _ _ _ _ _ _
      rw [List.length_eq_zero_iff.mp middleLength, List.length_eq_zero_iff.mp highLength]
  | cons first low ih =>
      intro middle high place middleLength highLength small middleSmall highSmall begins ends same
      obtain ⟨second, middle, rfl⟩ := List.exists_cons_of_length_eq_add_one middleLength
      obtain ⟨third, high, rfl⟩ := List.exists_cons_of_length_eq_add_one highLength
      cases place with
      | zero => rfl
      | succ place =>
          rw [List.take_succ_cons, List.take_succ_cons] at same ⊢
          obtain ⟨rfl, rest⟩ := List.cons.inj same
          have middleEqual : middle.length = low.length := Nat.add_right_cancel middleLength
          have highEqual : high.length = low.length := Nat.add_right_cancel highLength
          have later : ∀ {turns : List Nat} {turn : Nat},
              (∀ each ∈ turn :: turns, each < tableSize) →
              ∀ each ∈ turns, each < tableSize :=
            fun all each member => all each (List.mem_cons_of_mem _ member)
          have middleBound := number_lt middle (later middleSmall)
          have highBound := number_lt high (later highSmall)
          simp only [number, middleEqual, highEqual] at begins ends middleBound highBound
          have above := first_digit_le middleBound begins
          have below := first_digit_le highBound ends
          obtain rfl : first = second := by omega
          rw [ih middle high place middleEqual highEqual (later small) (later middleSmall)
            (later highSmall) (by omega) (by omega) rest]

def firstIndex (tableSize : Nat) (place : Nat) : Nat :=
  if place ≤ 12 then place
  else if place = 13 then 12 + tableSize
  else 12 + tableSize + tableSize * tableSize

theorem index_of_eq (digits : Digits tableSize location) : indexOf tableSize location =
    firstIndex tableSize (root location) + number tableSize (turns location) := by
  cases location with
  | direct d =>
      have inside : d < 12 := digits
      simp [indexOf, firstIndex, root, number, turns, Nat.le_of_lt inside]
  | single i => simp [indexOf, firstIndex, root, number, turns]
  | double i j =>
      simp [indexOf, firstIndex, root, number, turns]
      ring
  | triple i j k =>
      simp [indexOf, firstIndex, root, number, turns]
      ring

/-- The indices behind each of the pointers are before those behind the next. -/
theorem index_of_before (digits : Digits tableSize location) {place : Nat}
    (before : root location < place)
    (last : place ≤ 14) : indexOf tableSize location < firstIndex tableSize place := by
  have bound := number_lt (turns location) (turns_small digits)
  have direct : ∀ {place : Nat}, place ≤ 12 → firstIndex tableSize place = place := fun small =>
    if_pos small
  have double : firstIndex tableSize 13 = 12 + tableSize := rfl
  have triple : firstIndex tableSize 14 = 12 + tableSize + tableSize * tableSize := rfl
  have places : place ≤ 12 ∨ place = 13 ∨ place = 14 := by omega
  rw [index_of_eq digits]
  cases location with
  | direct d =>
      have inside : d < 12 := digits
      have nothing : number tableSize (turns (.direct d)) = 0 := rfl
      have here : root (.direct d) = d := rfl
      rw [here] at before ⊢
      rw [nothing, direct (Nat.le_of_lt inside)]
      rcases places with small | rfl | rfl
      · rw [direct small]
        exact before
      · rw [double]
        omega
      · rw [triple]
        omega
  | single i =>
      have here : root (.single i) = 12 := rfl
      have power : tableSize ^ (turns (.single i)).length = tableSize := pow_one tableSize
      rw [here] at before ⊢
      rw [direct (Nat.le_refl 12)]
      rcases places with small | rfl | rfl
      · omega
      · rw [double]
        omega
      · rw [triple]
        omega
  | double i j =>
      have here : root (.double i j) = 13 := rfl
      have power : tableSize ^ (turns (.double i j)).length = tableSize * tableSize :=
        pow_two tableSize
      rw [here] at before ⊢
      obtain rfl : place = 14 := by omega
      rw [double, triple]
      omega
  | triple i j k =>
      have here : root (.triple i j k) = 14 := rfl
      omega

theorem root_le (digits : Digits tableSize location) : root location ≤ 14 := by
  cases location with
  | direct d =>
      have inside : d < 12 := digits
      simp only [root]
      omega
  | single i => exact show 12 ≤ 14 by decide
  | double i j => exact show 13 ≤ 14 by decide
  | triple i j k => exact Nat.le_refl 14

theorem root_mono (digits : Digits tableSize location) (otherDigits : Digits tableSize other)
    (le : indexOf tableSize location ≤ indexOf tableSize other) : root location ≤ root other := by
  by_contra before
  have less := index_of_before otherDigits (Nat.lt_of_not_le before) (root_le digits)
  rw [index_of_eq digits] at le
  omega

/-- What the ways to two blocks share, they share with the way to a block between them. -/
theorem shares_between {place : Nat} {low middle high : InodeReadingLocationInfo}
    (digits : Digits tableSize low) (middleDigits : Digits tableSize middle)
    (highDigits : Digits tableSize high) (first : indexOf tableSize low ≤ indexOf tableSize middle)
    (second : indexOf tableSize middle ≤ indexOf tableSize high) (shares : Shares place low high) :
    Shares place middle high := by
  have lowRoot := root_mono digits middleDigits first
  have highRoot := root_mono middleDigits highDigits second
  have same := shares.root
  have rooted : root middle = root high := by omega
  rw [index_of_eq digits, index_of_eq middleDigits, same, rooted] at first
  rw [index_of_eq middleDigits, index_of_eq highDigits, rooted] at second
  exact ⟨rooted, take_between (turns low) (turns middle) (turns high) place
    (turns_length_eq middleDigits digits (by omega)) (turns_length_eq highDigits digits (by omega))
    (turns_small digits) (turns_small middleDigits) (turns_small highDigits) (by omega) (by omega)
    shares.turns⟩

/-- From its first hole on the way to a location leads along new blocks, which hold nothing
else, and all else is as before. -/
structure Grafted (roots rootsAfter : Nat → Nat) (contents contentsAfter : Contents)
    (tableSize : Nat)
    (location : InodeReadingLocationInfo) (hole : Nat) (blocks : List Nat) : Prop where
  digits : Digits tableSize location
  there : ∀ before < hole, ∀ table : Nat, (route roots contents location)[before]? = some table →
    table ≠ 0
  here : (route roots contents location)[hole]? = some 0
  leads : route rootsAfter contentsAfter location = (route roots contents location).take
    hole ++ blocks
  fresh : ∀ block ∈ blocks, block ≠ 0 ∧ block ∉ reachable roots contents tableSize
  nodup : blocks.Nodup
  rooted : ∀ place, place ≠ root location ∨ hole ≠ 0 → rootsAfter place = roots place
  kept : ∀ lba idx : Nat, lba ∉ blocks → idx < tableSize →
    (∀ before : Nat, hole = before + 1 → (route roots contents location)[before]? = some lba →
      (turns location)[before]? ≠ some idx) →
    entry (contentsAfter lba) idx = entry (contents lba) idx
  empty : ∀ place table idx : Nat, blocks[place]? = some table →
    hole + place < (turns location).length →
    idx < tableSize → (turns location)[hole + place]? ≠ some idx →
      entry (contentsAfter table) idx = 0

section Grafted

variable {hole : Nat} {blocks : List Nat}
  (graft : Grafted roots rootsAfter contents contentsAfter tableSize location hole blocks)

include graft

theorem grafted_here (place : Nat) :
    (route rootsAfter contentsAfter location)[hole + place]? = blocks[place]? := by
  have long := (List.getElem?_eq_some_iff.mp graft.here).1
  have front : ((route roots contents location).take hole).length = hole := by
    rw [List.length_take]
    omega
  rw [graft.leads, List.getElem?_append_right (by omega), front, Nat.add_sub_cancel_left]

theorem grafted_new {place : Nat} (shares : Shares place other location) (behind : hole ≤ place) :
    (route rootsAfter contentsAfter other)[place]? = blocks[place - hole]? := by
  rw [shares_place shares (Nat.le_refl _), ← grafted_here graft, Nat.add_sub_cancel' behind]

theorem grafted_zero {place : Nat} (shares : Shares place other location) (behind : hole ≤ place)
    (inside : place ≤ (turns location).length) : (route roots contents other)[place]? = some 0 := by
  rw [shares_place shares (Nat.le_refl _)]
  exact route_hole graft.here behind inside

theorem grafted_root (apart : ¬(Shares 0 other location ∧ hole ≤ 0)) :
    rootsAfter (root other) = roots (root other) := by
  apply graft.rooted
  by_cases same : root other = root location
  · right
    intro zero
    exact apart ⟨⟨same, rfl⟩, Nat.le_of_eq zero⟩
  · exact .inl same

/-- Every other place has the pointer it had. The induction is along the way. -/
theorem grafted_old (distinct : Distinct roots contents tableSize) (digits : Digits tableSize other)
    (place : Nat) :
    place ≤ (turns other).length → ¬(Shares place other location ∧ hole ≤ place) →
    (route rootsAfter contentsAfter other)[place]? = (route roots contents other)[place]? := by
  induction place with
  | zero =>
      intro _ apart
      rw [route_root, route_root, grafted_root graft apart]
  | succ place ih =>
      intro inside apart
      obtain ⟨turn, turnHere⟩ : ∃ turn, (turns other)[place]? = some turn :=
        ⟨_, List.getElem?_eq_getElem (by omega)⟩
      have turnSmall := turns_small digits turn (List.mem_of_getElem? turnHere)
      by_cases along : Shares place other location ∧ hole ≤ place
      · obtain ⟨shares, behind⟩ := along
        have lengths := turns_length_eq digits graft.digits shares.root
        have different : (turns location)[place]? ≠ some turn := by
          intro same
          exact apart ⟨shares_succ shares turnHere same, by omega⟩
        obtain ⟨table, found⟩ : ∃ table,
            (route rootsAfter contentsAfter other)[place]? = some table :=
          route_place (by omega)
        have block : blocks[place - hole]? = some table := by
          rw [← grafted_new graft shares behind]
          exact found
        have nothing := graft.empty (place - hole) table turn block (by omega) turnSmall
          (by rwa [Nat.add_sub_cancel' behind])
        rw [route_succ found turnHere, route_succ (grafted_zero graft shares behind (by omega))
          turnHere,
          nothing, if_pos rfl]
        split_ifs
        · rfl
        · rfl
      · have same := ih (by omega) along
        obtain ⟨pointer, found⟩ : ∃ pointer, (route roots contents other)[place]? = some pointer :=
          route_place (by omega)
        rw [route_succ found turnHere, route_succ (same.trans found) turnHere]
        by_cases zero : pointer = 0
        · rw [if_pos zero, if_pos zero]
        rw [if_neg zero, if_neg zero]
        have old := reachable_of_place digits found zero
        have outside : pointer ∉ blocks := fun member => (graft.fresh pointer member).2 old
        rw [graft.kept pointer turn outside turnSmall]
        -- the entry that was filled is on the way to the location
        intro before first onWay turnThere
        obtain ⟨rfl, shares⟩ := distinct other location place before pointer digits
          graft.digits found
          onWay zero
        exact apart ⟨shares_succ shares turnHere turnThere, by omega⟩

/-- A pointer of the new tree is one of the new blocks, or it was there. -/
theorem grafted_cases (distinct : Distinct roots contents tableSize)
    (digits : Digits tableSize other)
    {place pointer : Nat} (found : (route rootsAfter contentsAfter other)[place]? = some pointer) :
    (Shares place other location ∧ hole ≤ place ∧ blocks[place - hole]? = some pointer) ∨
      (route roots contents other)[place]? = some pointer := by
  by_cases along : Shares place other location ∧ hole ≤ place
  · left
    refine ⟨along.1, along.2, ?_⟩
    rw [← grafted_new graft along.1 along.2]
    exact found
  · right
    rw [← grafted_old graft distinct digits place (route_bound found) along]
    exact found

theorem grafted_still (distinct : Distinct roots contents tableSize)
    (digits : Digits tableSize other)
    {place pointer : Nat} (found : (route roots contents other)[place]? = some pointer)
    (nonzero : pointer ≠ 0) : (route rootsAfter contentsAfter other)[place]? = some pointer := by
  rw [grafted_old graft distinct digits place (route_bound found)]
  · exact found
  · intro along
    have lengths := turns_length_eq digits graft.digits along.1.root
    have bound := route_bound found
    have zero := grafted_zero graft along.1 along.2 (by omega)
    rw [found] at zero
    exact nonzero (Option.some.inj zero)

theorem grafted_distinct (distinct : Distinct roots contents tableSize) :
    Distinct rootsAfter contentsAfter tableSize := by
  intro first second place otherPlace pointer digits otherDigits found otherFound nonzero
  rcases grafted_cases graft distinct digits found with ⟨shares, behind, block⟩ | old
  · rcases grafted_cases graft distinct otherDigits otherFound with
      ⟨otherShares, otherBehind, otherBlock⟩ | old
    · have bound := (List.getElem?_eq_some_iff.mp block).1
      have equal := (List.getElem?_inj bound graft.nodup).mp (block.trans otherBlock.symm)
      obtain rfl : place = otherPlace := by omega
      exact ⟨rfl, shares_trans shares (shares_symm otherShares)⟩
    · exact absurd (reachable_of_place otherDigits old nonzero)
        (graft.fresh pointer (List.mem_of_getElem? block)).2
  · rcases grafted_cases graft distinct otherDigits otherFound with ⟨-, -, otherBlock⟩ | otherOld
    · exact absurd (reachable_of_place digits old nonzero)
        (graft.fresh pointer (List.mem_of_getElem? otherBlock)).2
    · exact distinct first second place otherPlace pointer digits otherDigits old otherOld nonzero

theorem grafted_reachable (distinct : Distinct roots contents tableSize) :
    reachable rootsAfter contentsAfter tableSize =
      reachable roots contents tableSize ∪ blocks.toFinset := by
  ext block
  rw [Finset.mem_union, List.mem_toFinset]
  constructor
  · intro member
    obtain ⟨nonzero, other, place, digits, found⟩ := place_of_reachable member
    rcases grafted_cases graft distinct digits found with ⟨-, -, new⟩ | old
    · exact .inr (List.mem_of_getElem? new)
    · exact .inl (reachable_of_place digits old nonzero)
  · intro member
    rcases member with old | new
    · obtain ⟨nonzero, other, place, digits, found⟩ := place_of_reachable old
      exact reachable_of_place digits (grafted_still graft distinct digits found nonzero) nonzero
    · obtain ⟨place, at_⟩ := List.mem_iff_getElem?.mp new
      rw [← grafted_here graft] at at_
      exact reachable_of_place graft.digits at_ (graft.fresh block new).1

theorem grafted_card (distinct : Distinct roots contents tableSize) :
    (reachable rootsAfter contentsAfter tableSize).card =
      (reachable roots contents tableSize).card + blocks.length := by
  have apart : Disjoint (reachable roots contents tableSize) blocks.toFinset := by
    rw [Finset.disjoint_left]
    intro block old new
    exact (graft.fresh block (List.mem_toFinset.mp new)).2 old
  rw [grafted_reachable graft distinct, Finset.card_union_of_disjoint apart,
    List.toFinset_card_of_nodup graft.nodup]

end Grafted

end Campix.Ext2
