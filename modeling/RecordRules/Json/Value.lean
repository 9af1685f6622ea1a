import RecordRules.Json.Lexeme

/-!
# Values of JSON text

A **value** is what JSON text says, with its strings and numerals as they are
written and the members of its objects in order, repeated keys among them.
Reading is strict about syntax and about nothing else: it neither decodes
strings nor converts numerals, and sets no bound on nesting. Whoever asks for
a field of an object or for the text of a string decides what is decoded, and
`Value.isSound` asks for everything at once.
-/

namespace RecordRules.Json

/-- **A value** of JSON text. -/
inductive Value where
  | null
  | truth (value : Bool)
  | number (numeral : Numeral)
  | string (quoted : Quoted)
  | array (items : List Value)
  | object (members : List (Quoted × Value))
  deriving Repr, Inhabited

namespace Value

/-! ## Writing -/

mutual

/-- The lexemes of a value. -/
def lexemes : Value → List Lexeme
  | null => [.null]
  | truth b => [.truth b]
  | number n => [.number n]
  | string q => [.string q]
  | array items => .openArray :: (itemLexemes items ++ [.closeArray])
  | object members => .openObject :: (memberLexemes members ++ [.closeObject])

/-- The lexemes of the items of an array, with the commas between them. -/
def itemLexemes : List Value → List Lexeme
  | [] => []
  | [v] => v.lexemes
  | v :: w :: rest => v.lexemes ++ .comma :: itemLexemes (w :: rest)

/-- The lexemes of the members of an object, with the commas between them. -/
def memberLexemes : List (Quoted × Value) → List Lexeme
  | [] => []
  | [(k, v)] => .string k :: .colon :: v.lexemes
  | (k, v) :: m :: rest =>
    .string k :: .colon :: (v.lexemes ++ .comma :: memberLexemes (m :: rest))

end

/-- **The value as compact text**: its lexemes, and nothing between them. -/
def render (v : Value) : String :=
  String.ofList (v.lexemes.flatMap Lexeme.spell)

/-! ## Reading -/

/-- What has been read from the front of fewer than `bound` lexemes, and the
lexemes after it. -/
abbrev Read (α : Type) (bound : Nat) :=
  Option (α × { rest : List Lexeme // rest.length < bound })

mutual

/-- **Reading a value.** -/
def readValue? (ls : List Lexeme) : Read Value ls.length :=
  match ls with
  | .null :: rest => some (null, ⟨rest, Nat.lt_succ_self _⟩)
  | .truth b :: rest => some (truth b, ⟨rest, Nat.lt_succ_self _⟩)
  | .number n :: rest => some (number n, ⟨rest, Nat.lt_succ_self _⟩)
  | .string q :: rest => some (string q, ⟨rest, Nat.lt_succ_self _⟩)
  | .openArray :: .closeArray :: rest =>
    some (array [], ⟨rest, Nat.lt_succ_of_lt (Nat.lt_succ_self _)⟩)
  | .openArray :: rest =>
    (readItems? rest).map fun (items, tail) =>
      (array items, ⟨tail.val, Nat.lt_succ_of_lt tail.property⟩)
  | .openObject :: .closeObject :: rest =>
    some (object [], ⟨rest, Nat.lt_succ_of_lt (Nat.lt_succ_self _)⟩)
  | .openObject :: rest =>
    (readMembers? rest).map fun (members, tail) =>
      (object members, ⟨tail.val, Nat.lt_succ_of_lt tail.property⟩)
  | _ => none
termination_by (ls.length, 0)

/-- Reading the items of an array up to the bracket that closes it; there is
at least one. -/
def readItems? (ls : List Lexeme) : Read (List Value) ls.length :=
  match readValue? ls with
  | some (v, ⟨.closeArray :: rest, h⟩) =>
    some ([v], ⟨rest, Nat.lt_of_succ_lt h⟩)
  | some (v, ⟨.comma :: rest, h⟩) =>
    (readItems? rest).map fun (items, tail) =>
      (v :: items, ⟨tail.val, Nat.lt_trans tail.property (Nat.lt_of_succ_lt h)⟩)
  | _ => none
termination_by (ls.length, 1)
decreasing_by
  · exact Prod.Lex.right _ (by decide)
  · exact Prod.Lex.left _ _ (Nat.lt_of_succ_lt h)

/-- Reading the members of an object up to the brace that closes it; there is
at least one. -/
def readMembers? (ls : List Lexeme) : Read (List (Quoted × Value)) ls.length :=
  match ls with
  | .string k :: .colon :: ls =>
    match readValue? ls with
    | some (v, ⟨.closeObject :: rest, h⟩) =>
      some ([(k, v)], ⟨rest, by simp only [List.length_cons] at h ⊢; omega⟩)
    | some (v, ⟨.comma :: rest, h⟩) =>
      (readMembers? rest).map fun (members, tail) =>
        ((k, v) :: members, ⟨tail.val, by
          have := tail.property
          simp only [List.length_cons] at h ⊢
          omega⟩)
    | _ => none
  | _ => none
termination_by (ls.length, 1)
decreasing_by
  · exact Prod.Lex.left _ _ (by simp only [List.length_cons]; omega)
  · exact Prod.Lex.left _ _ (by simp only [List.length_cons] at h ⊢; omega)

end

/-- The value that the lexemes spell, if they spell one and nothing more. -/
def ofLexemes? (ls : List Lexeme) : Option Value :=
  match readValue? ls with
  | some (v, ⟨[], _⟩) => some v
  | _ => none

/-- **The value that the text spells**, if it spells one and nothing more. -/
def ofText? (text : String) : Option Value :=
  (Lexeme.ofChars? text.toList).bind ofLexemes?

/-! ## Asking -/

/-- **Whether the whole value can be decoded**: it nests no more than `room`
arrays and objects in each other, its strings stand for texts, and its numbers
are not too large. -/
def isSound : (room : Nat) → Value → Bool
  | _, null => true
  | _, truth _ => true
  | _, number n => n.toBinary64?.isSome
  | _, string q => q.text?.isSome
  | 0, array _ => false
  | 0, object _ => false
  | room + 1, array items => items.all fun v => isSound room v
  | room + 1, object members =>
    members.all fun (k, v) => k.text?.isSome && isSound room v

/-- **How many arrays and objects may be nested** where a value is decoded. -/
def maxNesting : Nat := 127

/-- **The value that the text spells, decoded in full**, if it can be. -/
def soundOfText? (text : String) : Option Value :=
  (ofText? text).filter fun v => isSound maxNesting v

/-- The text of a string. -/
def text? : Value → Option String
  | string q => q.text?
  | _ => none

/-- The members of an object under their decoded keys. -/
def decodeKeys? (members : List (Quoted × Value)) : Option (List (String × Value)) :=
  members.mapM fun (k, v) => k.text?.map fun key => (key, v)

/-- The value of a field under any of its names; no two members may have one
of them. -/
def field? (members : List (String × Value)) (names : List String) :
    Option (Option Value) :=
  match members.filter fun m => names.contains m.1 with
  | [] => some none
  | [m] => some (some m.2)
  | _ => none

/-- **The fields of a record.** An object gives them by name, in any order, no
field twice, and what it has besides them is passed over; an array gives them
in the order of their declaration, and may stop early. For each field there
is a list of the names that it goes by. -/
def fields? (names : List (List String)) : Value → Option (List (Option Value))
  | object members => do
    let members ← decodeKeys? members
    names.mapM (field? members)
  | array items =>
    if items.length ≤ names.length then
      some (items.map some ++ List.replicate (names.length - items.length) none)
    else none
  | _ => none

end Value

end RecordRules.Json
