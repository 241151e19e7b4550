import Mathlib.Data.List.Induction
import Mathlib.Data.List.Nodup

/-!
# The keyboard interrupt

`irq1_keyboard.rs` and `keyboard.rs`: scan codes, the keys that are held, the modifiers and the
events made of them. What the handler keeps between two interrupts is created at the first one;
here it is empty before. The layout is a map ordered by keys and modifiers, no two of which
compare as equal, so that it is a list of pairs here.
-/

namespace Campix.Drivers.Keyboard

set_option autoImplicit false

inductive KeyboardEventKind where
  | keyDown
  | keyRepeat
  | keyUp
  deriving DecidableEq, Repr

abbrev KeyModifiers := BitVec 16

namespace KeyModifiers

def empty : KeyModifiers := 0
def leftShift : KeyModifiers := 1
def leftControl : KeyModifiers := 2
def leftAlt : KeyModifiers := 4
def rightShift : KeyModifiers := 128
def rightControl : KeyModifiers := 256
def rightAlt : KeyModifiers := 512

end KeyModifiers

inductive MultimediaKey where
  | nextTrack | mute | calculator | play | stop | volumeDown | volumeUp
  | wwwSearch | wwwFavorites | wwwRefresh | wwwStop | wwwForward | wwwBack
  | myComputer | email | mediaSelect
  deriving DecidableEq, Repr

inductive AcpiKey where
  | power | sleep | wake
  deriving DecidableEq, Repr

inductive Key where
  | escape
  | character (char : Char)
  | backspace
  | tab
  | enter
  | leftControl
  | leftShift
  | rightShift
  | keypad (char : Char)
  | leftAlt
  | space
  | capsLock
  | f (number : Nat)
  | numLock
  | scrollLock
  | multimedia (key : MultimediaKey)
  | keypadEnter
  | rightControl
  | rightAlt
  | home
  | cursorUp
  | pageUp
  | cursorLeft
  | cursorRight
  | end_
  | cursorDown
  | pageDown
  | insert
  | delete
  | leftGui
  | rightGui
  | apps
  | acpi (key : AcpiKey)
  deriving DecidableEq, Repr

namespace Key

def modifiers : Key → KeyModifiers
  | leftControl => KeyModifiers.leftControl
  | rightControl => KeyModifiers.rightControl
  | leftShift => KeyModifiers.leftShift
  | rightShift => KeyModifiers.rightShift
  | leftAlt => KeyModifiers.leftAlt
  | rightAlt => KeyModifiers.rightAlt
  | _ => KeyModifiers.empty

end Key

structure KeyboardEvent where
  kind : KeyboardEventKind
  modifiers : KeyModifiers
  rawKey : Key
  mappedKey : Key
  deriving DecidableEq

abbrev ModifiedKey := Key × KeyModifiers

structure KeyboardLayout where
  mappings : List (ModifiedKey × Key)

namespace KeyboardLayout

def map (layout : KeyboardLayout) (key : Key) (modifiers : KeyModifiers) : Key :=
  (layout.mappings.lookup (key, modifiers)).getD key

def setMap (layout : KeyboardLayout) (key : Key) (modifiers : KeyModifiers)
    (mappedKey : Option Key) :
    KeyboardLayout :=
  let others := layout.mappings.filter fun mapping => mapping.1 ≠ (key, modifiers)
  match mappedKey with
  | none => { mappings := others }
  | some mappedKey => { mappings := ((key, modifiers), mappedKey) :: others }

def defaultEnUs : KeyboardLayout :=
  "abcdefghijklmnopqrstuvwxyz".toList.foldl (fun layout letter =>
    let upper := some (Key.character letter.toUpper)
    ((layout.setMap (.character letter) KeyModifiers.leftShift upper).setMap
      (.character letter) KeyModifiers.rightShift upper).setMap
        (.character letter) (KeyModifiers.leftShift ||| KeyModifiers.rightShift) upper) ⟨[]⟩

end KeyboardLayout

/-- The codes behind `0xE0`. -/
def extendedScancodes : List (UInt8 × Key) :=
  [(0x19, .multimedia .nextTrack), (0x1C, .keypadEnter), (0x1D, .rightControl),
    (0x20, .multimedia .mute),
    (0x21, .multimedia .calculator), (0x22, .multimedia .play), (0x24, .multimedia .stop),
    (0x2E, .multimedia .volumeDown), (0x30, .multimedia .volumeUp), (0x35, .keypad '/'),
    (0x38, .rightAlt),
    (0x47, .home), (0x48, .cursorUp), (0x49, .pageUp), (0x4B, .cursorLeft), (0x4D, .cursorRight),
    (0x4F, .end_), (0x50, .cursorDown), (0x51, .pageDown), (0x52, .insert), (0x53, .delete),
    (0x5B, .leftGui), (0x5C, .rightGui), (0x5D, .apps), (0x5E, .acpi .power), (0x5F, .acpi .sleep),
    (0x63, .acpi .wake), (0x65, .multimedia .wwwSearch), (0x66, .multimedia .wwwFavorites),
    (0x67, .multimedia .wwwRefresh), (0x68, .multimedia .wwwStop), (0x69, .multimedia .wwwForward),
    (0x6A, .multimedia .wwwBack), (0x6B, .multimedia .myComputer), (0x6C, .multimedia .email),
    (0x6D, .multimedia .mediaSelect)]

/-- All other codes; `0x27`, `0x60` and `0x5C` are the characters quote, backquote and backslash. -/
def scancodes : List (UInt8 × Key) :=
  [(0x01, .escape), (0x02, .character '1'), (0x03, .character '2'), (0x04, .character '3'),
    (0x05, .character '4'), (0x06, .character '5'), (0x07, .character '6'), (0x08, .character '7'),
    (0x09, .character '8'), (0x0A, .character '9'), (0x0B, .character '0'), (0x0C, .character '-'),
    (0x0D, .character '='), (0x0E, .backspace), (0x0F, .tab), (0x10, .character 'q'),
    (0x11, .character 'w'),
    (0x12, .character 'e'), (0x13, .character 'r'), (0x14, .character 't'), (0x15, .character 'y'),
    (0x16, .character 'u'), (0x17, .character 'i'), (0x18, .character 'o'), (0x19, .character 'p'),
    (0x1A, .character '['), (0x1B, .character ']'), (0x1C, .enter), (0x1D, .leftControl),
    (0x1E, .character 'a'), (0x1F, .character 's'), (0x20, .character 'd'), (0x21, .character 'f'),
    (0x22, .character 'g'), (0x23, .character 'h'), (0x24, .character 'j'), (0x25, .character 'k'),
    (0x26, .character 'l'), (0x27, .character ';'), (0x28, .character (Char.ofNat 0x27)),
    (0x29, .character (Char.ofNat 0x60)), (0x2A, .leftShift), (0x2B, .character (Char.ofNat 0x5C)),
    (0x2C, .character 'z'), (0x2D, .character 'x'), (0x2E, .character 'c'), (0x2F, .character 'v'),
    (0x30, .character 'b'), (0x31, .character 'n'), (0x32, .character 'm'), (0x33, .character ','),
    (0x34, .character '.'), (0x35, .character '/'), (0x36, .rightShift), (0x37, .keypad '*'),
    (0x38, .leftAlt), (0x39, .space), (0x3A, .capsLock), (0x3B, .f 1), (0x3C, .f 2), (0x3D, .f 3),
    (0x3E, .f 4), (0x3F, .f 5), (0x40, .f 6), (0x41, .f 7), (0x42, .f 8), (0x43, .f 9),
    (0x44, .f 10),
    (0x45, .numLock), (0x46, .scrollLock), (0x47, .keypad '7'), (0x48, .keypad '8'),
    (0x49, .keypad '9'),
    (0x4A, .keypad '-'), (0x4B, .keypad '4'), (0x4C, .keypad '5'), (0x4D, .keypad '6'),
    (0x4E, .keypad '+'),
    (0x4F, .keypad '1'), (0x50, .keypad '2'), (0x51, .keypad '3'), (0x52, .keypad '0'),
    (0x53, .keypad '.'),
    (0x57, .f 11), (0x58, .f 12)]

abbrev Decoded := Key × KeyboardEventKind

def decode (table : List (UInt8 × Key)) (scancode : UInt8) : Option Decoded :=
  (table.lookup (scancode &&& ~~~0x80)).map fun key =>
    (key, if scancode &&& 0x80 ≠ 0 then .keyUp else .keyDown)

/-- The bytes are what the port gives; the second one is read only behind `0xE0`. -/
def readKeyboardLayoutEnUs (scancode second : UInt8) : Option Decoded :=
  if scancode = 0xE0 then decode extendedScancodes second else decode scancodes scancode

/-- `DOWN_KEYS` and `MODIFIERS`. -/
structure HandlerState where
  downKeys : List Key
  modifiers : KeyModifiers

def HandlerState.start : HandlerState := ⟨[], KeyModifiers.empty⟩

def removeKey (downKeys : List Key) (key : Key) : List Key :=
  match downKeys.findIdx? (· == key) with
  | some index => downKeys.eraseIdx index
  | none => downKeys

def handleKey (state : HandlerState) (decoded : Decoded) : HandlerState × KeyboardEvent :=
  let (key, kind) := decoded
  let wasDown := kind ≠ .keyDown ∨ key ∈ state.downKeys
  let after : HandlerState :=
    match kind with
    | .keyDown =>
        { downKeys := if key ∈ state.downKeys then state.downKeys else state.downKeys ++ [key]
          modifiers := state.modifiers ||| key.modifiers }
    | .keyUp =>
        { downKeys := removeKey state.downKeys key
          modifiers := state.modifiers &&& ~~~key.modifiers }
    | .keyRepeat => state
  (after,
    { rawKey := key
      mappedKey := KeyboardLayout.defaultEnUs.map key after.modifiers
      kind := if wasDown ∧ kind = .keyDown then .keyRepeat else kind
      modifiers := after.modifiers })

/-- One interrupt. Nothing happens for a code that is not known. -/
def handler (state : HandlerState) (scancode second : UInt8) :
    HandlerState × Option KeyboardEvent :=
  match readKeyboardLayoutEnUs scancode second with
  | none => (state, none)
  | some decoded =>
      let (after, event) := handleKey state decoded
      (after, some event)

def holder : Nat → Option Key
  | 0 => some .leftShift
  | 1 => some .leftControl
  | 2 => some .leftAlt
  | 7 => some .rightShift
  | 8 => some .rightControl
  | 9 => some .rightAlt
  | _ => none

theorem bit_empty (place : Nat) : KeyModifiers.empty.getLsbD place = false :=
  BitVec.getLsbD_zero

theorem holder_of_bit {key : Key} {place : Nat} (set : key.modifiers.getLsbD place = true) :
    holder place = some key := by
  have inside : place < 16 := by
    by_contra outside
    rw [BitVec.getLsbD_of_ge _ _ (Nat.le_of_not_lt outside)] at set
    exact Bool.false_ne_true set
  have clear : KeyModifiers.empty.getLsbD place ≠ true := by
    rw [bit_empty]
    exact Bool.false_ne_true
  have held : ∀ place < 16,
      (KeyModifiers.leftShift.getLsbD place = true → holder place = some .leftShift) ∧
      (KeyModifiers.leftControl.getLsbD place = true → holder place = some .leftControl) ∧
      (KeyModifiers.leftAlt.getLsbD place = true → holder place = some .leftAlt) ∧
      (KeyModifiers.rightShift.getLsbD place = true → holder place = some .rightShift) ∧
      (KeyModifiers.rightControl.getLsbD place = true → holder place = some .rightControl) ∧
      (KeyModifiers.rightAlt.getLsbD place = true → holder place = some .rightAlt) := by
    decide
  obtain ⟨shift, control, alt, rightShift, rightControl, rightAlt⟩ := held place inside
  cases key with
  | leftShift => exact shift set
  | leftControl => exact control set
  | leftAlt => exact alt set
  | rightShift => exact rightShift set
  | rightControl => exact rightControl set
  | rightAlt => exact rightAlt set
  | _ => exact absurd set clear

theorem modifiers_apart {key other : Key} {place : Nat} (set : key.modifiers.getLsbD place = true)
    (otherSet : other.modifiers.getLsbD place = true) : key = other :=
  Option.some.inj ((holder_of_bit set).symm.trans (holder_of_bit otherSet))

def modifiersOf (keys : List Key) : KeyModifiers :=
  keys.foldl (fun modifiers key => modifiers ||| key.modifiers) KeyModifiers.empty

theorem bit_modifiers_of (keys : List Key) (place : Nat) :
    (modifiersOf keys).getLsbD place = true ↔ ∃ key ∈ keys, key.modifiers.getLsbD place = true := by
  have collected : ∀ (keys : List Key) (start : KeyModifiers),
      (keys.foldl (fun modifiers key => modifiers ||| key.modifiers) start).getLsbD place = true ↔
        start.getLsbD place = true ∨ ∃ key ∈ keys, key.modifiers.getLsbD place = true := by
    intro keys
    induction keys with
    | nil => simp
    | cons key keys ih =>
        intro start
        rw [List.foldl_cons, ih, BitVec.getLsbD_or,
          Bool.or_eq_true, or_assoc, List.exists_mem_cons_iff]
  rw [modifiersOf, collected, bit_empty]
  exact or_iff_right Bool.false_ne_true

theorem modifiers_of_ext {left right : KeyModifiers}
    (same : ∀ place, left.getLsbD place = true ↔ right.getLsbD place = true) : left = right :=
  BitVec.eq_of_getLsbD_eq fun place _ => Bool.eq_iff_iff.mpr (same place)

theorem modifiers_of_push (keys : List Key) (key : Key) :
    modifiersOf (keys ++ [key]) = modifiersOf keys ||| key.modifiers := by
  rw [modifiersOf, List.foldl_append]
  rfl

theorem modifiers_of_held {keys : List Key} {key : Key} (held : key ∈ keys) :
    modifiersOf keys ||| key.modifiers = modifiersOf keys := by
  apply modifiers_of_ext
  intro place
  rw [BitVec.getLsbD_or, Bool.or_eq_true, or_iff_left_iff_imp, bit_modifiers_of]
  exact fun set => ⟨key, held, set⟩

theorem modifiers_of_erase {keys : List Key} (distinct : keys.Nodup) (key : Key) :
    modifiersOf (keys.erase key) = modifiersOf keys &&& ~~~key.modifiers := by
  apply modifiers_of_ext
  intro place
  rw [BitVec.getLsbD_and, Bool.and_eq_true, bit_modifiers_of, bit_modifiers_of]
  constructor
  · rintro ⟨other, member, set⟩
    obtain ⟨apart, held⟩ := distinct.mem_erase_iff.mp member
    refine ⟨⟨other, held, set⟩, ?_⟩
    have inside : place < 16 := BitVec.lt_of_getLsbD set
    rw [BitVec.getLsbD_not, decide_eq_true inside, Bool.true_and, Bool.not_eq_true']
    by_contra shared
    exact apart (modifiers_apart set (Bool.not_eq_false _ ▸ shared))
  · rintro ⟨⟨other, held, set⟩, cleared⟩
    refine ⟨other, distinct.mem_erase_iff.mpr ⟨?_, held⟩, set⟩
    rintro rfl
    rw [BitVec.getLsbD_not, set, Bool.not_true, Bool.and_false] at cleared
    exact Bool.false_ne_true cleared

theorem remove_key_eq (downKeys : List Key) (key : Key) :
    removeKey downKeys key = downKeys.erase key := by
  rw [removeKey, List.erase_eq_eraseIdx, List.idxOf?]
  cases downKeys.findIdx? (· == key) with
  | none => rfl
  | some index => rfl

def handled (events : List Decoded) : HandlerState :=
  events.foldl (fun state decoded => (handleKey state decoded).1) HandlerState.start

def lastKind (events : List Decoded) (key : Key) : Option KeyboardEventKind :=
  ((events.filter fun event => event.1 = key).getLast?).map Prod.snd

theorem last_kind_append (events : List Decoded) (event : Decoded) (key : Key) :
    lastKind (events ++ [event]) key = if event.1 = key then some event.2 else lastKind events
      key := by
  unfold lastKind
  rw [List.filter_append]
  by_cases same : event.1 = key
  · rw [if_pos same, List.filter_cons_of_pos (by simpa using same), List.filter_nil,
      List.getLast?_concat]
    rfl
  · rw [if_neg same, List.filter_cons_of_neg (by simpa using same), List.filter_nil,
      List.append_nil]

structure Mirrors (events : List Decoded) (state : HandlerState) : Prop where
  distinct : state.downKeys.Nodup
  held : ∀ key, key ∈ state.downKeys ↔ lastKind events key = some .keyDown
  modifiers : state.modifiers = modifiersOf state.downKeys

theorem mirrors_start : Mirrors [] HandlerState.start where
  distinct := List.nodup_nil
  held key := by simp [HandlerState.start, lastKind]
  modifiers := rfl

def IsDecoded (decoded : Decoded) : Prop := decoded.2 = .keyDown ∨ decoded.2 = .keyUp

instance (decoded : Decoded) : Decidable (IsDecoded decoded) :=
  inferInstanceAs (Decidable (_ ∨ _))

theorem mirrors_down {events : List Decoded} {state : HandlerState} (mirrors : Mirrors events state)
    (key : Key) :
    Mirrors (events ++ [(key, .keyDown)]) (handleKey state (key, .keyDown)).1 := by
  have last := last_kind_append events (key, .keyDown)
  by_cases member : key ∈ state.downKeys
  · have same : (handleKey state (key, .keyDown)).1 =
        ⟨state.downKeys, state.modifiers ||| key.modifiers⟩ := by
      simp [handleKey, member]
    rw [same]
    refine ⟨mirrors.distinct, fun other => ?_, ?_⟩
    · rw [last, mirrors.held]
      split_ifs with here
      · obtain rfl : key = other := here
        exact iff_of_true ((mirrors.held key).mp member) rfl
      · exact Iff.rfl
    · rw [mirrors.modifiers, modifiers_of_held member]
  · have same : (handleKey state (key, .keyDown)).1 =
        ⟨state.downKeys ++ [key], state.modifiers ||| key.modifiers⟩ := by
      simp [handleKey, member]
    rw [same]
    refine ⟨?_, fun other => ?_, ?_⟩
    · exact List.nodup_append_comm.mp (List.nodup_cons.mpr ⟨member, mirrors.distinct⟩)
    · rw [last, List.mem_append, List.mem_singleton, mirrors.held]
      split_ifs with here
      · exact iff_of_true (Or.inr here.symm) rfl
      · exact or_iff_left fun equal => here equal.symm
    · rw [modifiers_of_push, mirrors.modifiers]

theorem mirrors_up {events : List Decoded} {state : HandlerState} (mirrors : Mirrors events state)
    (key : Key) :
    Mirrors (events ++ [(key, .keyUp)]) (handleKey state (key, .keyUp)).1 := by
  have last := last_kind_append events (key, .keyUp)
  have same : (handleKey state (key, .keyUp)).1 =
      ⟨state.downKeys.erase key, state.modifiers &&& ~~~key.modifiers⟩ := by
    rw [← remove_key_eq]
    rfl
  rw [same]
  refine ⟨mirrors.distinct.erase key, fun other => ?_, ?_⟩
  · rw [last, mirrors.distinct.mem_erase_iff, mirrors.held]
    split_ifs with here
    · obtain rfl : key = other := here
      exact iff_of_false (fun held => held.1 rfl) fun down => by cases down
    · exact and_iff_right fun equal => here equal.symm
  · rw [modifiers_of_erase mirrors.distinct, mirrors.modifiers]

theorem mirrors_handled (events : List Decoded) (decoded : ∀ event ∈ events, IsDecoded event) :
    Mirrors events (handled events) := by
  induction events using List.reverseRecOn with
  | nil => exact mirrors_start
  | append_singleton events event ih =>
      have before := ih fun earlier member => decoded earlier (List.mem_append_left _ member)
      have next : handled (events ++ [event]) = (handleKey (handled events) event).1 := by
        rw [handled, List.foldl_append]
        rfl
      rw [next]
      obtain ⟨key, kind⟩ := event
      rcases decoded (key, kind) (List.mem_append_right _ (List.mem_singleton.mpr rfl)) with
        rfl | rfl
      · exact mirrors_down before key
      · exact mirrors_up before key

/-- After any key-downs and key-ups the handler knows the keys that are held and their
modifiers, and of what comes next it reports as a repeat what goes down a second time. -/
theorem keyboard_mirrors_held_keys (events : List Decoded)
    (decoded : ∀ event ∈ events, IsDecoded event) :
    (handled events).downKeys.Nodup ∧
      (∀ key, key ∈ (handled events).downKeys ↔ lastKind events key = some .keyDown) ∧
      (handled events).modifiers = modifiersOf (handled events).downKeys ∧
      ∀ next : Decoded, IsDecoded next →
        ((handleKey (handled events) next).2.kind = .keyRepeat ↔
          next.2 = .keyDown ∧ lastKind events next.1 = some .keyDown) := by
  have mirrors := mirrors_handled events decoded
  refine ⟨mirrors.distinct, mirrors.held, mirrors.modifiers, ?_⟩
  rintro ⟨key, kind⟩ legal
  rw [← mirrors.held]
  rcases legal with rfl | rfl
  · by_cases member : key ∈ (handled events).downKeys
    · simp [handleKey, member]
    · simp [handleKey, member]
  · simp [handleKey]

/-- A key that goes down twice under a modifier, and a key that only goes up. -/
def shiftedLetter : List Decoded :=
  [(.leftShift, .keyDown), (.character 'a', .keyDown), (.rightAlt, .keyUp),
    (.character 'a', .keyDown)]

theorem shifted_letter_mirrored :
    (handled shiftedLetter).downKeys.Nodup ∧
      (∀ key, key ∈ (handled shiftedLetter).downKeys ↔ lastKind shiftedLetter key = some .keyDown) ∧
      (handled shiftedLetter).modifiers = modifiersOf (handled shiftedLetter).downKeys ∧
      ∀ next : Decoded, IsDecoded next →
        ((handleKey (handled shiftedLetter) next).2.kind = .keyRepeat ↔
          next.2 = .keyDown ∧ lastKind shiftedLetter next.1 = some .keyDown) :=
  keyboard_mirrors_held_keys shiftedLetter (by decide)

theorem decoded_of_read {scancode second : UInt8} {decoded : Decoded}
    (read : readKeyboardLayoutEnUs scancode second = some decoded) : IsDecoded decoded := by
  have kinds : ∀ {table : List (UInt8 × Key)} {code : UInt8}, decode table code = some decoded →
      IsDecoded decoded := by
    intro table code given
    obtain ⟨key, _, rfl⟩ := Option.map_eq_some_iff.mp given
    unfold IsDecoded
    dsimp only
    split_ifs
    · exact Or.inr rfl
    · exact Or.inl rfl
  unfold readKeyboardLayoutEnUs at read
  split_ifs at read
  · exact kinds read
  · exact kinds read

/-- The bytes that the port gives at each interrupt. -/
abbrev Codes := UInt8 × UInt8

def interrupted (codes : List Codes) : HandlerState :=
  codes.foldl (fun state code => (handler state code.1 code.2).1) HandlerState.start

def decodedEvents (codes : List Codes) : List Decoded :=
  codes.filterMap fun code => readKeyboardLayoutEnUs code.1 code.2

/-- Whatever bytes the keyboard sends, the handler mirrors the keys that they stand for. -/
theorem mirrors_interrupted (codes : List Codes) :
    Mirrors (decodedEvents codes) (interrupted codes) := by
  have known : ∀ event ∈ decodedEvents codes, IsDecoded event := by
    intro event member
    obtain ⟨code, _, read⟩ := List.mem_filterMap.mp member
    exact decoded_of_read read
  have same : ∀ (codes : List Codes) (state : HandlerState),
      codes.foldl (fun state code => (handler state code.1 code.2).1) state =
        (decodedEvents codes).foldl (fun state decoded => (handleKey state decoded).1) state := by
    intro codes
    induction codes with
    | nil => exact fun _ => rfl
    | cons code codes ih =>
        intro state
        rw [List.foldl_cons, ih, handler, decodedEvents, decodedEvents, List.filterMap_cons]
        cases readKeyboardLayoutEnUs code.1 code.2 with
        | none => rfl
        | some decoded => rfl
  rw [interrupted, same]
  exact mirrors_handled _ known

end Campix.Drivers.Keyboard
