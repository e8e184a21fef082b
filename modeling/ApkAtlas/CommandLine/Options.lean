import ApkAtlas.Text.Segment

namespace ApkAtlas.CommandLine

/-!
# Options and words

The arguments of a command are options and words. A long option has its value behind an
equals sign or in the next argument; short options of one letter may be written together
behind one dash, and the last of them may have its value right behind it. A double dash
ends the options.
-/

/-- An option that a command knows. -/
structure OptionForm (Key : Type) where
  key : Key
  /-- The names with their dashes. -/
  names : List String
  takesValue : Bool := false
deriving Repr, DecidableEq

/-- An option that was given. -/
structure GivenOption (Key : Type) where
  key : Key
  value : String := ""
deriving Repr, DecidableEq

/-- What is wrong with arguments. -/
inductive UsageError where
  | unknownOption (name : String)
  | missingValue (name : String)
  | unexpectedValue (name : String)
  | unknownCommand (name : String)
  | missingCommand
  | missingWord
  | extraWord (word : String)
  | badValue (option value : String)
deriving Repr, DecidableEq

/-- The options of some arguments in order, the words between them, and what follows the
last one that was looked at. -/
structure Arguments (Key : Type) where
  options : List (GivenOption Key) := []
  words : List String := []
  rest : List String := []
deriving Repr, DecidableEq

namespace OptionForm

variable {Key : Type}

/-- The known option of a name. -/
def named? (forms : List (OptionForm Key)) (name : String) : Option (OptionForm Key) :=
  forms.find? fun form => form.names.contains name

end OptionForm

namespace Arguments

variable {Key : Type}

/-- Options that were read, and the arguments behind them. -/
abbrev Found (Key : Type) := List (GivenOption Key) × List String

/-- Reads an option that takes a value, which may be given with it. -/
def withValue
    (key : Key)
    (name : String)
    (attached : Option String)
    (rest : List String) :
    Except UsageError (Found Key) :=
  match attached, rest with
  | some value, _ => .ok ([⟨key, value⟩], rest)
  | none, value :: after => .ok ([⟨key, value⟩], after)
  | none, [] => .error (.missingValue name)

/-- Reads the letters behind one dash. -/
def readLetters (forms : List (OptionForm Key)) (rest : List String) :
    List Char → Except UsageError (Found Key)
  | [] => .ok ([], rest)
  | letter :: more =>
      let name := String.ofList ['-', letter]
      match OptionForm.named? forms name with
      | none => .error (.unknownOption name)
      | some form =>
          if form.takesValue then
            withValue form.key name (if more.isEmpty then none else some (String.ofList more)) rest
          else do
            let (others, rest) ← readLetters forms rest more
            return (⟨form.key, ""⟩ :: others, rest)

/-- Reads a long option. -/
def readLong (forms : List (OptionForm Key)) (rest : List String) (text : List Char) :
    Except UsageError (Found Key) :=
  let (nameText, attached) := Text.cutFirst '=' text
  let name := String.ofList nameText
  match OptionForm.named? forms name with
  | none => .error (.unknownOption name)
  | some form =>
      if form.takesValue then
        withValue form.key name (attached.map String.ofList) rest
      else
        match attached with
        | some _ => .error (.unexpectedValue name)
        | none => .ok ([⟨form.key, ""⟩], rest)

/-- Reads arguments one after another; each step takes at least one. Without
`interspersed` options, the first word ends them. -/
def readWithin (forms : List (OptionForm Key)) (interspersed : Bool) :
    Nat → List String → Except UsageError (Arguments Key)
  | 0, rest => .ok { rest }
  | _ + 1, [] => .ok {}
  | steps + 1, first :: rest => do
      match first.toList with
      | ['-', '-'] => return { rest }
      | '-' :: second :: more =>
          let (found, rest) ←
            if second = '-' then readLong forms rest first.toList
            else readLetters forms rest (second :: more)
          let others ← readWithin forms interspersed steps rest
          return { others with options := found ++ others.options }
      | _ =>
          if interspersed then
            let others ← readWithin forms interspersed steps rest
            return { others with words := first :: others.words }
          else
            return { rest := first :: rest }

/-- Reads arguments. -/
def read (forms : List (OptionForm Key)) (interspersed : Bool) (arguments : List String) :
    Except UsageError (Arguments Key) :=
  readWithin forms interspersed (arguments.length + 1) arguments

/-- All words, also those behind a double dash. -/
def allWords (arguments : Arguments Key) : List String :=
  arguments.words ++ arguments.rest

end Arguments

end ApkAtlas.CommandLine
