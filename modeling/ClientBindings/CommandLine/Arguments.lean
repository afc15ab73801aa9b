/-!
# Arguments

The arguments of a command line, read by the flags that a program knows.

* `settings?`: what the arguments set, in their order. A flag is written `--name`; its value follows
  as `--name=value` or as the next argument. An argument that is neither is refused.
* `Settings.value?`, `Settings.has`: what is set.
-/

namespace ClientBindings.CommandLine

/-- What a flag is for. -/
inductive Purpose
  /-- It names a path, and is given once at most. -/
  | path
  /-- It turns something on, and is given once at most. -/
  | switch
  /-- It is given as often as wanted. -/
  | counter
  deriving DecidableEq, Repr

/-- A flag that a program knows. -/
structure Flag where
  name : String
  purpose : Purpose
  /-- The letter that stands for it behind a single hyphen. -/
  letter : Option Char := none
  deriving DecidableEq, Repr

/-- A flag that is set, with its value if it has one. -/
structure Setting where
  flag : Flag
  value : Option String := none
  deriving DecidableEq, Repr

/-- What an argument amounts to. -/
inductive Reading
  /-- It sets flags by itself. -/
  | whole (settings : List Setting)
  /-- Its value is the next argument. -/
  | opened (flag : Flag)
  deriving DecidableEq, Repr

/-- Whether an argument can be the value of the flag before it: it is not empty, and it starts with
no hyphen unless it is one. -/
def isValue (argument : String) : Bool :=
  argument == "-" || (!argument.isEmpty && argument.toList.head? != some '-')

/-- An argument behind two hyphens. -/
def readLong? (flags : List Flag) (body : List Char) : Option Reading := do
  let name := String.ofList (body.takeWhile (· ≠ '='))
  let flag ← flags.find? fun flag => flag.name == name
  match flag.purpose, body.dropWhile (· ≠ '=') with
  | .path, [] => some (.opened flag)
  | .path, [_] => none
  | .path, _ :: value => some (.whole [⟨flag, some (String.ofList value)⟩])
  | _, [] => some (.whole [⟨flag, none⟩])
  | _, _ => none

/-- An argument behind one hyphen: letters of flags without values. -/
def readShort? (flags : List Flag) (letters : List Char) : Option Reading := do
  let settings ← letters.mapM fun letter => do
    let flag ← flags.find? fun flag => flag.letter == some letter
    some { flag : Setting }
  some (.whole settings)

/-- What an argument amounts to, unless it is the value of a flag. -/
def read? (flags : List Flag) (argument : String) : Option Reading :=
  match argument.toList with
  | '-' :: '-' :: body => readLong? flags body
  | '-' :: letter :: letters => readShort? flags (letter :: letters)
  | _ => none

/-- The settings in their order. Two hyphens alone end the flags, and nothing may follow them. -/
def readAll? (flags : List Flag) : List String → Option (List Setting)
  | [] => some []
  | argument :: rest =>
    if argument == "--" then if rest.isEmpty then some [] else none
    else match read? flags argument, rest with
      | some (.whole settings), rest => (readAll? flags rest).map (settings ++ ·)
      | some (.opened flag), value :: rest =>
        if isValue value then (readAll? flags rest).map (⟨flag, some value⟩ :: ·) else none
      | _, _ => none

/-- Whether no flag that may be set once is set twice. -/
def Consistent (settings : List Setting) : Prop :=
  ((settings.map (·.flag)).filter fun flag => flag.purpose ≠ .counter).Nodup

instance (settings : List Setting) : Decidable (Consistent settings) :=
  inferInstanceAs (Decidable (List.Nodup _))

/-- What the arguments set. -/
abbrev Settings := List Setting

/-- What the arguments set; none if an argument is refused. -/
def settings? (flags : List Flag) (arguments : List String) : Option Settings := do
  let settings ← readAll? flags arguments
  if Consistent settings then some settings else none

/-- The value of the flag. -/
def Settings.value? (settings : Settings) (flag : Flag) : Option String := do
  let setting ← settings.find? fun setting => setting.flag == flag
  setting.value

/-- Whether the flag is set. -/
def Settings.has (settings : Settings) (flag : Flag) : Bool :=
  settings.any fun setting => setting.flag == flag

end ClientBindings.CommandLine
