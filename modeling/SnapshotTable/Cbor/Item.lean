import SnapshotTable.Cbor.Head

/-!
Readers of whole items: sequences of items, strings in pieces, unsigned 64-bit integers, and items
that are read only to be left out. Input is read front to back and the first problem met is the
one reported.
-/

namespace SnapshotTable.Cbor

set_option autoImplicit false

open Reader

variable {α β : Type}

def repeated (step : β → Reader β) : Nat → β → Reader β
  | 0, state => pure state
  | count + 1, state => do
    let state ← step state
    repeated step count state

def untilStop (step : β → Reader β) : (steps : Nat) → β → Reader β
  | 0, _ => throw .truncated
  | steps + 1, state => do
    let here ← get
    match ← Head.read with
    | .stop => pure state
    | _ =>
      set here
      let state ← step state
      untilStop step steps state

/-- Reads the elements of an array or map whose head is already read. -/
def elements (length : Option Nat) (step : β → Reader β) (state : β) : Reader β :=
  match length with
  | some count => repeated step count state
  | none => bounded fun steps => untilStop step steps state

def headPastTags : Reader Head :=
  bounded loop
where
  loop : Nat → Reader Head
    | 0 => throw .truncated
    | steps + 1 => do
      match ← Head.read with
      | .tag _ => loop steps
      | head => pure head

theorem headPastTags_of_read {input rest : Bytes} {head : Head}
    (first : Head.read input = .ok (head, rest)) (noTag : ∀ number, head ≠ .tag number) :
    headPastTags input = .ok (head, rest) := by
  rw [headPastTags, bounded, headPastTags.loop, bind_of_ok first]
  split
  · exact absurd rfl (noTag _)
  · rfl

inductive StringKind where
  | bytes
  | text
deriving DecidableEq

/-- The length in a head of a string of the given kind, and `none` for every other head. -/
def StringKind.length? : StringKind → Head → Option (Option Nat)
  | .bytes, .bytes length => some length
  | .text, .text length => some length
  | _, _ => none

/-- Reads the pieces of a string whose head is already read: one piece of the given length, or
pieces of the same kind up to a stop. An open piece opens another level, which its stop closes. -/
def pieces (kind : StringKind) (length : Option Nat) (piece : Nat → β → Reader β) (state : β) :
    Reader β :=
  match length with
  | some count => piece count state
  | none => bounded fun steps => loop steps 0 state
where
  loop : (steps : Nat) → (levels : Nat) → β → Reader β
    | 0, _, _ => throw .truncated
    | steps + 1, levels, state => do
      match ← Head.read with
      | .stop => if levels = 0 then pure state else loop steps (levels - 1) state
      | head =>
        match kind.length? head with
        | some (some count) => do
          let state ← piece count state
          loop steps levels state
        | some none => loop steps (levels + 1) state
        | none => throw .malformed

def validUtf8 (bytes : Bytes) : Bool := (ByteArray.mk bytes.toArray).validateUTF8

def byteString (length : Option Nat) : Reader Bytes :=
  pieces .bytes length (fun count bytes => do return bytes ++ (← take count)) []

def windowSize : Nat := 4096

/-- The fewest bytes at the end of a window, three at most, without which it is UTF-8. They may be
the beginning of a character. -/
def heldBack? (window : Bytes) : Option Bytes :=
  let kept := [0, 1, 2, 3].map (window.length - ·)
  (kept.find? fun count => validUtf8 (window.take count)).map window.drop

/-- Leaves out one piece of a text, window by window. Bytes that are held back begin the next
window, and none may be left in the end. So what is no UTF-8 can be met before the input ends. -/
def skipCharacters (length : Nat) : Reader Unit :=
  bounded fun steps => loop steps length []
where
  loop : (steps : Nat) → (left : Nat) → (held : Bytes) → Reader Unit
    | 0, _, _ => throw .truncated
    | steps + 1, left, held =>
      if left = 0 then
        if held.isEmpty then pure () else throw .malformed
      else do
        let fresh := min left (windowSize - held.length)
        match heldBack? (held ++ (← take fresh)) with
        | some held => loop steps (left - fresh) held
        | none => throw .malformed

/-- Leaves out a text whose head is already read. Each piece must be UTF-8 on its own. -/
def skipText (length : Option Nat) : Reader Unit :=
  pieces .text length (fun count _ => skipCharacters count) ()

def addDigits (digits chunk : Bytes) : Reader Bytes :=
  chunk.foldlM (fun digits byte =>
    if digits.length = 16 then throw .mismatched
    else if digits.isEmpty && byte == 0 then pure digits
    else pure (digits ++ [byte])) digits

def magnitude (length : Option Nat) : Reader Bytes :=
  pieces .bytes length (fun count digits => do
    let digits ← repeated chunk (count / 16) digits
    addDigits digits (← take (count % 16))) []
where
  chunk (digits : Bytes) : Reader Bytes := do addDigits digits (← take 16)

/-- Reads a number of at most 64 bits: an unsigned integer, or tag 2 on a byte string. -/
def uint64 : Reader UInt64 :=
  bounded loop
where
  /-- The digits of the big number whose tag is already read. -/
  digits : Reader Bytes := do
    match ← Head.read with
    | .bytes length => magnitude length
    | _ => throw .mismatched
  loop : Nat → Reader UInt64
    | 0 => throw .truncated
    | steps + 1 => do
      match ← Head.read with
      | .unsigned value => pure (UInt64.ofNat value)
      | .tag 2 =>
        let value := (← digits).toNat
        if value < UInt64.size then pure (UInt64.ofNat value) else throw .mismatched
      | .tag 3 =>
        let _ ← digits
        throw .mismatched
      | .tag _ => loop steps
      | _ => throw .mismatched

theorem uint64_spells {number : UInt64} {bytes : Bytes}
    (spelled : Head.Spells 0 number.toNat bytes) (rest : Bytes) :
    uint64 (bytes ++ rest) = .ok (number, rest) := by
  have first : Head.read (bytes ++ rest) = .ok (.unsigned number.toNat, rest) :=
    Head.read_spells spelled (by decide) rest
  rw [uint64, bounded, uint64.loop, bind_of_ok first]
  change Except.ok (UInt64.ofNat number.toNat, rest) = _
  rw [UInt64.ofNat_toNat]

/-- Leaves out one item, of which `inner` reads nested items; without it nesting is too deep. A
tagged byte string of up to sixteen bytes is a big number, which must lie between -2^127 and
2^128, and nests nothing. -/
def skipWith (inner : Option (Reader Unit)) : Reader Unit := do
  match ← Head.read with
  | .unsigned _ | .negative _ | .float => pure ()
  | .bytes length => discard (byteString length)
  | .text length => skipText length
  | .array length =>
    let item ← nested
    elements length (fun _ => item) ()
  | .map length =>
    let item ← nested
    elements length (fun _ => do item; item) ()
  | .tag number =>
    let here ← get
    match number, ← Head.read with
    | 2, .bytes (some length) =>
      if length ≤ 16 then discard (take length) else enter here
    | 3, .bytes (some length) =>
      if length ≤ 16 then
        unless (← take length).toNat < Bytes.capacity 16 / 2 do throw .mismatched
      else enter here
    | _, _ => enter here
  | .simple number => if 20 ≤ number ∧ number ≤ 23 then pure () else throw .mismatched
  | .stop => throw .mismatched
where
  nested : Reader (Reader Unit) :=
    match inner with
    | some item => pure item
    | none => throw .tooDeep
  enter (here : Bytes) : Reader Unit := do
    let item ← nested
    set here
    item

/-- Leaves out one item in which at most `depth` arrays, maps and tags are open at once. -/
def skip : (depth : Nat) → Reader Unit
  | 0 => skipWith none
  | depth + 1 => skipWith (some (skip depth))

end SnapshotTable.Cbor
