/-!
JSON documents and their indented form: two spaces a level, one item a line, an empty list or
record on one line.
-/

namespace SnapshotTable

set_option autoImplicit false

inductive Document where
  | absent
  | flag (value : Bool)
  | number (value : Nat)
  | text (value : String)
  | list (items : List Document)
  | record (fields : List (String × Document))

namespace Document

def escape (character : Char) : String :=
  match character with
  | '"' => "\\\""
  | '\x5c' => "\\\\"
  | '\x08' => "\\b"
  | '\x0c' => "\\f"
  | '\n' => "\\n"
  | '\r' => "\\r"
  | '\t' => "\\t"
  | other =>
    if other.toNat < 0x20 then
      "\\u00" ++ String.ofList [Nat.digitChar (other.toNat / 16), Nat.digitChar (other.toNat % 16)]
    else String.singleton other

def quote (text : String) : String := "\"" ++ String.join (text.toList.map escape) ++ "\""

def newline (level : Nat) : String := "\n" ++ String.ofList (List.replicate (2 * level) ' ')

def bracketed (opening closing : String) (level : Nat) : List String → String
  | [] => opening ++ closing
  | lines =>
    opening ++ newline (level + 1) ++ (("," ++ newline (level + 1)).intercalate lines) ++
      newline level ++ closing

mutual

def render (level : Nat) : Document → String
  | absent => "null"
  | flag value => if value then "true" else "false"
  | number value => toString value
  | text value => quote value
  | list items => bracketed "[" "]" level (renderItems (level + 1) items)
  | record fields => bracketed "\x7b" "\x7d" level (renderFields (level + 1) fields)

def renderItems (level : Nat) : List Document → List String
  | [] => []
  | item :: rest => render level item :: renderItems level rest

def renderFields (level : Nat) : List (String × Document) → List String
  | [] => []
  | (key, value) :: rest => (quote key ++ ": " ++ render level value) :: renderFields level rest

end

def print (document : Document) : String := render 0 document ++ "\n"

end Document

end SnapshotTable
