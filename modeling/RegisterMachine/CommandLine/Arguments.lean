/-! Command line arguments: options and positionals in any order.
An option has a long name after two dashes, or a letter after one; letters may be joined, and a
value may follow its option directly or as the next argument. After a double dash all is positional.

This states what is assumed about the parser of the command line: long names are not abbreviated; an
option may come after positionals; an option that is unknown, that lacks its value, or that is given
one against its kind makes the arguments unacceptable, even where help is asked for; the last value
given counts; and a text of a single dash is a positional.
-/

namespace RegisterMachine

/-- An option of a command: its long name, its letter if any, and whether it takes a value. -/
structure OptionSpec where
  name : String
  letter : Option Char
  takesValue : Bool
  deriving DecidableEq, Repr

/-- Arguments after sorting: the options with their values in the order given, and the rest. -/
structure Arguments where
  options : List (String × Option String)
  positionals : List String
  deriving DecidableEq, Repr

namespace Arguments

def consPositional (text : String) (arguments : Arguments) : Arguments :=
  { arguments with positionals := text :: arguments.positionals }

/-- What joined letters ask for: options, and the name of a last one whose value is to come. -/
def readLetters? (specs : List OptionSpec)
    : List Char → Option (List (String × Option String) × Option String)
  | [] => some ([], none)
  | letter :: rest =>
      match specs.find? fun spec => spec.letter = some letter with
      | none => none
      | some spec =>
          if spec.takesValue then
            if rest = [] then
              some ([], some spec.name)
            else
              some ([(spec.name, some (String.ofList rest))], none)
          else
            (readLetters? specs rest).map fun (options, pending) =>
              ((spec.name, none) :: options, pending)

/-- What a long option asks for, in the same form. A value may follow an equals sign. -/
def readLong? (specs : List OptionSpec) (text : List Char)
    : Option (List (String × Option String) × Option String) :=
  let name := String.ofList (text.takeWhile (· ≠ '='))
  match specs.find? fun spec => spec.name = name, text.dropWhile (· ≠ '=') with
  | none, _ => none
  | some spec, [] =>
      if spec.takesValue then some ([], some spec.name) else some ([(spec.name, none)], none)
  | some spec, _ :: value =>
      if spec.takesValue then some ([(spec.name, some (String.ofList value))], none) else none

/-- Sorts arguments, if every option is known and has a value exactly if it takes one. -/
def parse? (specs : List OptionSpec) : List String → Option Arguments
  | [] => some ⟨[], []⟩
  | argument :: rest =>
      match argument.toList with
      | ['-', '-'] => some ⟨[], rest⟩
      | '-' :: c :: name =>
          match if c = '-' then readLong? specs name else readLetters? specs (c :: name) with
          | none => none
          | some (options, none) =>
              (parse? specs rest).map fun arguments =>
                { arguments with options := options ++ arguments.options }
          | some (options, some pending) =>
              match rest with
              | [] => none
              | value :: rest =>
                  (parse? specs rest).map fun arguments =>
                    { arguments with
                      options := options ++ (pending, some value) :: arguments.options }
      | _ => (parse? specs rest).map (consPositional argument)

def has (arguments : Arguments) (name : String) : Bool :=
  arguments.options.any fun option => option.1 = name

/-- The value of an option; the last one given counts. -/
def value? (arguments : Arguments) (name : String) : Option String :=
  (arguments.options.reverse.lookup name).join

end Arguments

end RegisterMachine
