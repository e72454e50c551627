import SnapshotTable.Proofs.Hexadecimal
import SnapshotTable.Text.Document

/-!
Reading a printed document. The reader knows nothing of levels and lines, only white space between
the tokens, and gives back every document that was printed.
-/

namespace SnapshotTable.Document

set_option autoImplicit false

/-- What is read from the front of the characters, and what is left of them. -/
abbrev Reader (α : Type) := List Char → Option (α × List Char)

def isSpace (character : Char) : Bool := [' ', '\n', '\r', '\t'].contains character

def readMark (mark : Char) (characters : List Char) : Option (List Char) :=
  match characters.dropWhile isSpace with
  | [] => none
  | first :: rest => if first = mark then some rest else none

def unescape? : Char → Option Char
  | 'b' => some '\x08'
  | 'f' => some '\x0c'
  | 'n' => some '\n'
  | 'r' => some '\r'
  | 't' => some '\t'
  | other => if ['"', '\x5c', '/'].contains other then some other else none

def coded? (digits : List Char) : Option Char := do
  let values ← digits.mapM Hex.digit?
  let code := values.foldl (16 * · + ·) 0
  if code.isValidChar then some (Char.ofNat code) else none

def readText : Reader (List Char)
  | [] => none
  | '"' :: rest => some ([], rest)
  | '\x5c' :: 'u' :: first :: second :: third :: fourth :: rest => do
    let character ← coded? [first, second, third, fourth]
    (readText rest).map (Prod.map (character :: ·) id)
  | '\x5c' :: letter :: rest => do
    let character ← unescape? letter
    (readText rest).map (Prod.map (character :: ·) id)
  | character :: rest => (readText rest).map (Prod.map (character :: ·) id)

def readNumber : Reader Nat := fun characters =>
  match characters.takeWhile Char.isDigit with
  | [] => none
  | digits => some (Nat.ofDigitChars 10 digits 0, characters.dropWhile Char.isDigit)

section Bodies

variable {α : Type}

/-- Reads items with commas between them up to the closing mark. -/
def readMore (readItem : Reader α) (closing : Char) : (fuel : Nat) → Reader (List α)
  | 0, _ => none
  | fuel + 1, characters => do
    let (item, rest) ← readItem characters
    match readMark closing rest with
    | some rest => return ([item], rest)
    | none =>
      let rest ← readMark ',' rest
      let (items, rest) ← readMore readItem closing fuel rest
      return (item :: items, rest)

/-- There may be no item at all. Each one takes a character or more. -/
def readBody (readItem : Reader α) (closing : Char) : Reader (List α) := fun characters =>
  match readMore readItem closing characters.length characters with
  | some body => some body
  | none => (readMark closing characters).map ([], ·)

def readField (readItem : Reader α) : Reader (String × α) := fun characters => do
  let rest ← readMark '"' characters
  let (key, rest) ← readText rest
  let rest ← readMark ':' rest
  let (item, rest) ← readItem rest
  return ((String.ofList key, item), rest)

end Bodies

/-- Reads a document that is nested no deeper than the fuel. -/
def readValue : (fuel : Nat) → Reader Document
  | 0, _ => none
  | fuel + 1, characters =>
    match characters.dropWhile isSpace with
    | 'n' :: 'u' :: 'l' :: 'l' :: rest => some (.absent, rest)
    | 't' :: 'r' :: 'u' :: 'e' :: rest => some (.flag true, rest)
    | 'f' :: 'a' :: 'l' :: 's' :: 'e' :: rest => some (.flag false, rest)
    | '"' :: rest => (readText rest).map (Prod.map (.text ∘ String.ofList) id)
    | '[' :: rest => (readBody (readValue fuel) ']' rest).map (Prod.map .list id)
    | '\x7b' :: rest => (readBody (readField (readValue fuel)) '\x7d' rest).map (Prod.map .record id)
    | others => (readNumber others).map (Prod.map .number id)

/-- Reads one document with nothing but white space around it. Each level takes a character. -/
def read? (text : String) : Option Document := do
  let (document, rest) ← readValue text.length text.toList
  if rest.all isSpace then some document else none

/-- The item is read from the characters behind white space, whatever follows that is no digit. -/
def Gives {α : Type} (readItem : Reader α) (characters : List Char) (item : α) : Prop :=
  ∀ space rest, (∀ character ∈ space, isSpace character) →
    (∀ character ∈ rest.head?, ¬character.isDigit) →
      readItem (space ++ characters ++ rest) = some (item, rest)

theorem readMark_behind {space : List Char} (blank : ∀ character ∈ space, isSpace character)
    (mark : Char) (rest : List Char) : readMark mark (space ++ rest) = readMark mark rest := by
  rw [readMark, readMark, List.dropWhile_append_of_pos blank]

theorem readMark_here {mark : Char} (visible : ¬isSpace mark) (rest : List Char) :
    readMark mark (mark :: rest) = some rest := by
  simp only [readMark, List.dropWhile_cons_of_neg visible, if_true]

theorem readMark_other {first mark : Char} (visible : ¬isSpace first) (other : first ≠ mark)
    (rest : List Char) : readMark mark (first :: rest) = none := by
  simp only [readMark, List.dropWhile_cons_of_neg visible, if_neg other]

theorem coded?_control {code : Nat} (small : code < 0x20) :
    coded? ['0', '0', Nat.digitChar (code / 16), Nat.digitChar (code % 16)] =
      some (Char.ofNat code) := by
  have all : ∀ code < 0x20,
      coded? ['0', '0', Nat.digitChar (code / 16), Nat.digitChar (code % 16)] =
        some (Char.ofNat code) := by decide
  exact all code small

theorem readText_escape (character : Char) (rest : List Char) :
    readText ((escape character).toList ++ rest) =
      (readText rest).map (Prod.map (character :: ·) id) := by
  unfold escape
  split
  case h_8 quote backslash _ _ _ _ _ =>
    split
    · rename_i control
      have coded := coded?_control control
      rw [Char.ofNat_toNat] at coded
      rw [String.toList_append, String.toList_ofList, String.toList_ofList]
      change (coded? _ >>= fun character => (readText rest).map (Prod.map (character :: ·) id)) = _
      rw [coded]
      rfl
    · rw [String.toList_singleton, List.singleton_append, readText]
      · exact quote
      · intro _ _ _ _ _ same
        exact absurd same backslash
      · intro _ _ same
        exact absurd same backslash
  all_goals rfl

theorem readText_join (text rest : List Char) :
    readText ((String.join (text.map escape)).toList ++ '"' :: rest) = some (text, rest) := by
  induction text with
  | nil => rfl
  | cons first others ih =>
    rw [String.toList_join] at ih ⊢
    rw [List.map_cons, List.flatMap_cons, List.append_assoc, readText_escape, ih]
    rfl

theorem exists_quoted (text : String) : ∃ body, (quote text).toList = '"' :: body ∧
    ∀ rest, readText (body ++ rest) = some (text.toList, rest) := by
  refine ⟨(String.join (text.toList.map escape)).toList ++ ['"'], ?_, fun rest => ?_⟩
  · simp only [quote, String.toList_append]
    rfl
  · rw [List.append_assoc]
    exact readText_join text.toList rest

theorem isSpace_of_mem_newline {level : Nat} :
    ∀ character ∈ (newline level).toList, isSpace character := by
  simp only [newline, String.toList_append, String.toList_ofList]
  intro character mem
  rcases List.mem_append.1 mem with first | blank
  · rw [List.mem_singleton.1 first]
    rfl
  · rw [List.eq_of_mem_replicate blank]
    rfl

theorem not_isDigit_of_isSpace {character : Char} (white : isSpace character) :
    ¬character.isDigit := by
  simp only [isSpace, List.contains_iff_mem, List.mem_cons, List.not_mem_nil, or_false] at white
  rcases white with rfl | rfl | rfl | rfl <;> decide

theorem noDigit_behind {space : List Char} (blank : ∀ character ∈ space, isSpace character)
    {mark : Char} (noDigit : ¬mark.isDigit) (rest : List Char) :
    ∀ character ∈ (space ++ mark :: rest).head?, ¬character.isDigit := by
  cases space with
  | nil =>
    rintro character ⟨⟩
    exact noDigit
  | cons first others =>
    rintro character ⟨⟩
    exact not_isDigit_of_isSpace (blank first List.mem_cons_self)

theorem length_le_of_mem_intercalate {separator line : List Char} {lines : List (List Char)}
    (mem : line ∈ lines) : line.length ≤ (separator.intercalate lines).length := by
  induction lines with
  | nil => cases mem
  | cons first others ih =>
    cases others with
    | nil =>
      rw [List.mem_singleton.1 mem, List.intercalate_singleton]
    | cons second others =>
      rw [List.intercalate_cons_cons, List.length_append, List.length_append]
      rcases List.mem_cons.1 mem with rfl | later
      · omega
      · have := ih later
        omega

theorem length_le_intercalate {separator : List Char} (some : separator ≠ [])
    (lines : List (List Char)) : lines.length ≤ (separator.intercalate lines).length + 1 := by
  have positive := List.length_pos_iff.2 some
  induction lines with
  | nil => exact Nat.zero_le _
  | cons first others ih =>
    cases others with
    | nil => exact Nat.le_add_left _ _
    | cons second others =>
      rw [List.intercalate_cons_cons, List.length_append, List.length_append, List.length_cons]
      omega

section Bodies

variable {α : Type} {readItem : Reader α} {closing : Char}

theorem readMore_intercalate (closes : closing = ']' ∨ closing = '\x7d') {write : α → String}
    {items : List α} (some : items ≠ [])
    (gives : ∀ item ∈ items, Gives readItem (write item).toList item) {fuel : Nat}
    (enough : items.length ≤ fuel) {space after : List Char}
    (blank : ∀ character ∈ space, isSpace character)
    (blank' : ∀ character ∈ after, isSpace character) (rest : List Char) :
    readMore readItem closing fuel
      (space ++ (',' :: space).intercalate ((items.map write).map String.toList) ++
        (after ++ closing :: rest)) = .some (items, rest) := by
  have visible : ¬isSpace closing := by rcases closes with rfl | rfl <;> decide
  have noDigit : ¬closing.isDigit := by rcases closes with rfl | rfl <;> decide
  have noComma : ',' ≠ closing := by rcases closes with rfl | rfl <;> decide
  induction items generalizing fuel with
  | nil => contradiction
  | cons item others ih =>
    obtain _ | fuel := fuel
    · contradiction
    have here := gives item List.mem_cons_self
    cases others with
    | nil =>
      rw [List.map_singleton, List.map_singleton, List.intercalate_singleton, readMore,
        here _ _ blank (noDigit_behind blank' noDigit rest)]
      simp only [Option.bind_eq_bind, Option.bind_some, readMark_behind blank', readMark_here visible]
      rfl
    | cons next others =>
      have later := ih (List.cons_ne_nil _ _)
        (fun item mem => gives item (List.mem_cons_of_mem _ mem)) (Nat.le_of_succ_le_succ enough)
      rw [List.map_cons, List.map_cons] at later
      have shape (line joined : List Char) :
          space ++ (line ++ (',' :: space) ++ joined) ++ (after ++ closing :: rest) =
            space ++ line ++ ',' :: (space ++ joined ++ (after ++ closing :: rest)) := by
        simp only [List.append_assoc, List.cons_append]
      have comma : ¬isSpace ',' := by decide
      have ends (others : List Char) :
          ∀ character ∈ (',' :: others).head?, ¬character.isDigit := by
        rintro character ⟨⟩
        decide
      rw [List.map_cons, List.map_cons, List.map_cons, List.map_cons, List.intercalate_cons_cons,
        shape, readMore, here _ _ blank (ends _)]
      simp only [Option.bind_eq_bind, Option.bind_some, readMark_here comma,
        readMark_other comma noComma, later]
      rfl

theorem toList_bracketed {opening closing : String} {first last : Char}
    (opens : opening.toList = [first]) (closes : closing.toList = [last]) (level : Nat)
    {lines : List String} (some : lines ≠ []) :
    (bracketed opening closing level lines).toList = first :: ((newline (level + 1)).toList ++
      (',' :: (newline (level + 1)).toList).intercalate (lines.map String.toList) ++
        ((newline level).toList ++ [last])) := by
  have separator : ("," ++ newline (level + 1)).toList = ',' :: (newline (level + 1)).toList := by
    rw [String.toList_append]
    rfl
  obtain ⟨line, others, rfl⟩ := List.exists_cons_of_ne_nil some
  simp only [bracketed, String.toList_append, String.toList_intercalate, opens, closes]
  rw [← String.toList_append, separator]
  simp only [List.append_assoc, List.cons_append, List.nil_append]

theorem length_lt_bracketed {opening closing : String} {first last : Char}
    (opens : opening.toList = [first]) (closes : closing.toList = [last]) (level : Nat)
    {lines : List String} {line : String} (mem : line ∈ lines) :
    line.toList.length < (bracketed opening closing level lines).toList.length := by
  rw [toList_bracketed opens closes level (List.ne_nil_of_mem mem)]
  have inside : line.toList.length ≤ ((',' :: (newline (level + 1)).toList).intercalate
      (lines.map String.toList)).length :=
    length_le_of_mem_intercalate (List.mem_map_of_mem mem)
  simp only [List.length_cons, List.length_append]
  omega

theorem exists_bracketed {opening : String} {first : Char} (opens : opening.toList = [first])
    {mark : String} (closed : mark.toList = [closing]) (closes : closing = ']' ∨ closing = '\x7d')
    (refuses : ∀ rest, readItem (closing :: rest) = none) {write : α → String} {items : List α}
    (gives : ∀ item ∈ items, Gives readItem (write item).toList item) (level : Nat) :
    ∃ body, (bracketed opening mark level (items.map write)).toList = first :: body ∧
      ∀ rest, readBody readItem closing (body ++ rest) = some (items, rest) := by
  by_cases empty : items = []
  · subst empty
    refine ⟨[closing], ?_, fun rest => ?_⟩
    · rw [List.map_nil, bracketed, String.toList_append, opens, closed]
      rfl
    · have visible : ¬isSpace closing := by rcases closes with rfl | rfl <;> decide
      rw [List.singleton_append, readBody, List.length_cons, readMore, refuses,
        readMark_here visible]
      rfl
  · refine ⟨_, toList_bracketed opens closed level (mt List.map_eq_nil_iff.1 empty), fun rest => ?_⟩
    have counted := length_le_intercalate (List.cons_ne_nil ',' (newline (level + 1)).toList)
      ((items.map write).map String.toList)
    rw [List.length_map, List.length_map] at counted
    have read := fun fuel enough => @readMore_intercalate _ readItem _ closes _ _ empty gives fuel
      enough _ _ (@isSpace_of_mem_newline (level + 1)) (@isSpace_of_mem_newline level) rest
    simp only [List.append_assoc, List.singleton_append] at read ⊢
    rw [readBody, read]
    simp only [List.length_append, List.length_cons]
    omega

end Bodies

theorem readField_write {α : Type} {readItem : Reader α} {characters : List Char} {item : α}
    (gives : Gives readItem characters item) (key : String) :
    Gives (readField readItem) ((quote key ++ ": ").toList ++ characters) (key, item) := by
  intro space rest blank noDigit
  obtain ⟨body, quoted, read⟩ := exists_quoted key
  have quoteMark : ¬isSpace '"' := by decide
  have colon : ¬isSpace ':' := by decide
  have shape : space ++ ((quote key ++ ": ").toList ++ characters) ++ rest =
      space ++ '"' :: (body ++ (':' :: ([' '] ++ characters ++ rest))) := by
    rw [String.toList_append, quoted]
    simp only [List.append_assoc, List.cons_append, List.nil_append]
    rfl
  rw [shape, readField, readMark_behind blank, readMark_here quoteMark]
  simp only [Option.bind_eq_bind, Option.bind_some, read]
  have blank' : ∀ character ∈ [' '], isSpace character := List.forall_mem_singleton.2 rfl
  rw [readMark_here colon, Option.bind_some, gives _ _ blank' noDigit, Option.bind_some,
    String.ofList_toList]
  rfl

theorem exists_number (number : Nat) : ∃ first body,
    (toString number).toList = first :: body ∧ first.isDigit ∧
      ∀ rest : List Char, (∀ character ∈ rest.head?, ¬character.isDigit) →
        readNumber (first :: (body ++ rest)) = some (number, rest) := by
  have written : (toString number).toList = Nat.toDigits 10 number := Nat.toList_repr
  have value : Nat.ofDigitChars 10 (Nat.toDigits 10 number) 0 = number :=
    Nat.ofDigitChars_toDigits (by decide) (by decide)
  have digits : ∀ character ∈ Nat.toDigits 10 number, character.isDigit := fun character mem =>
    Nat.isDigit_of_mem_toDigits (by decide) (by decide) mem
  obtain ⟨first, body, spelled⟩ := List.exists_cons_of_ne_nil (@Nat.toDigits_ne_nil number 10)
  rw [spelled] at written value digits
  refine ⟨first, body, written, digits first List.mem_cons_self, fun rest noDigit => ?_⟩
  have taken : rest.takeWhile Char.isDigit = [] ∧ rest.dropWhile Char.isDigit = rest := by
    cases rest with
    | nil => exact ⟨rfl, rfl⟩
    | cons next others =>
      have no : ¬next.isDigit := noDigit next rfl
      exact ⟨List.takeWhile_cons_of_neg no, List.dropWhile_cons_of_neg no⟩
  rw [← List.cons_append, readNumber, List.takeWhile_append_of_pos digits, taken.1, List.append_nil,
    List.dropWhile_append_of_pos digits, taken.2]
  simp only [value]

theorem renderItems_eq_map (level : Nat) (items : List Document) :
    renderItems level items = items.map (render level) := by
  induction items with
  | nil => rfl
  | cons item others ih => rw [renderItems, ih, List.map_cons]

def renderField (level : Nat) (field : String × Document) : String :=
  quote field.1 ++ ": " ++ render level field.2

theorem renderFields_eq_map (level : Nat) (fields : List (String × Document)) :
    renderFields level fields = fields.map (renderField level) := by
  induction fields with
  | nil => rfl
  | cons field others ih => rw [renderFields, ih, List.map_cons, renderField]

theorem readValue_behind {space : List Char} (blank : ∀ character ∈ space, isSpace character)
    (fuel : Nat) (rest : List Char) : readValue fuel (space ++ rest) = readValue fuel rest := by
  cases fuel with
  | zero => rfl
  | succ fuel => rw [readValue, readValue, List.dropWhile_append_of_pos blank]

theorem readValue_digit {first : Char} (digit : first.isDigit) (fuel : Nat) (rest : List Char) :
    readValue (fuel + 1) (first :: rest) =
      (readNumber (first :: rest)).map (Prod.map .number id) := by
  have visible : ¬isSpace first := fun white => not_isDigit_of_isSpace white digit
  rw [readValue, List.dropWhile_cons_of_neg visible]
  split
  case h_7 => rfl
  all_goals
    rename_i same
    cases same
    exact absurd digit (by decide)

theorem readValue_render {fuel : Nat} {document : Document} {level : Nat}
    (enough : (render level document).toList.length < fuel) :
    Gives (readValue fuel) (render level document).toList document := by
  -- the parts of a list or a record have fewer characters than the whole, so less fuel will do
  induction fuel generalizing document level with
  | zero => exact absurd enough (Nat.not_lt_zero _)
  | succ fuel ih =>
    intro space rest blank noDigit
    rw [List.append_assoc, readValue_behind blank]
    cases document with
    | absent =>
      rw [render]
      rfl
    | flag value =>
      rw [render]
      cases value <;> rfl
    | number value =>
      obtain ⟨first, body, written, digit, read⟩ := exists_number value
      rw [render, written, List.cons_append, readValue_digit digit, read rest noDigit]
      rfl
    | text value =>
      obtain ⟨body, quoted, read⟩ := exists_quoted value
      have here : readValue (fuel + 1) ('"' :: (body ++ rest)) =
        (readText (body ++ rest)).map (Prod.map (.text ∘ String.ofList) id) := rfl
      rw [render, quoted, List.cons_append, here, read, Option.map_some, Prod.map,
        Function.comp_apply, String.ofList_toList]
      rfl
    | list items =>
      rw [render, renderItems_eq_map] at enough ⊢
      have opens : "[".toList = ['['] := rfl
      have closes : "]".toList = [']'] := rfl
      have refuses (rest : List Char) : readValue fuel (']' :: rest) = none := by
        cases fuel <;> rfl
      have gives : ∀ item ∈ items,
          Gives (readValue fuel) (render (level + 1) item).toList item := by
        intro item mem
        have shorter : (render (level + 1) item).toList.length < _ :=
          length_lt_bracketed opens closes level (List.mem_map_of_mem mem)
        exact ih (Nat.lt_of_lt_of_le shorter (Nat.le_of_lt_succ enough))
      obtain ⟨body, written, read⟩ :=
        exists_bracketed opens closes (.inl rfl) refuses gives level
      have here : readValue (fuel + 1) ('[' :: (body ++ rest)) =
        (readBody (readValue fuel) ']' (body ++ rest)).map (Prod.map .list id) := rfl
      rw [written, List.cons_append, here, read]
      rfl
    | record fields =>
      rw [render, renderFields_eq_map] at enough ⊢
      have opens : "\x7b".toList = ['\x7b'] := rfl
      have closes : "\x7d".toList = ['\x7d'] := rfl
      have refuses (rest : List Char) : readField (readValue fuel) ('\x7d' :: rest) = none := rfl
      have gives : ∀ field ∈ fields, Gives (readField (readValue fuel))
          (renderField (level + 1) field).toList field := by
        intro field mem
        have shorter : (renderField (level + 1) field).toList.length < _ :=
          length_lt_bracketed opens closes level (List.mem_map_of_mem mem)
        rw [renderField, String.toList_append, List.length_append] at shorter
        rw [renderField, String.toList_append]
        exact readField_write (ih (by omega)) field.1
      obtain ⟨body, written, read⟩ :=
        exists_bracketed opens closes (.inr rfl) refuses gives level
      have here : readValue (fuel + 1) ('\x7b' :: (body ++ rest)) =
        (readBody (readField (readValue fuel)) '\x7d' (body ++ rest)).map (Prod.map .record id) := rfl
      rw [written, List.cons_append, here, read]
      rfl

/-- Every document can be read from what it is printed as. -/
theorem read?_print (document : Document) : read? document.print = some document := by
  have ended : document.print.toList = [] ++ (render 0 document).toList ++ ['\n'] := by
    rw [print, String.toList_append]
    rfl
  have enough : (render 0 document).toList.length < document.print.length := by
    rw [← String.length_toList, ended]
    simp
  have noDigit : ∀ character ∈ ['\n'].head?, ¬character.isDigit := by
    rintro character ⟨⟩
    decide
  have given := readValue_render enough [] ['\n'] (by simp) noDigit
  rw [read?, ended, given]
  rfl

end SnapshotTable.Document
