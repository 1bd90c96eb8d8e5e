import Phototaxis.CommandLine.Options
import Phototaxis.Number.Literal

/-!
# Arguments

The arguments of the command line are read from left to right. An option and its
value are one argument with an equals sign between them, or two arguments. In the
second form the option stays *pending* until the next known option or the end of
the arguments: only then is it put among the options. So an argument that cannot be
understood is found before a wrong value of the option in front of it.

Putting an option among the others looks first for a missing value, then for a
repetition, then at the value itself. An argument that begins with a dash is never taken
for the value of a pending option, except the lone dash.
-/

namespace Phototaxis

/-- The options that an argument may name. -/
inductive OptionName where
  | addLight
  | randomLights
  | addVehicle
  | randomVehicles
  | file
  | seed
  | seconds
  | ticks
  | output
  | linearSearch
deriving DecidableEq, Repr

namespace OptionName

/-- All options. -/
def all : List OptionName :=
  [addLight, randomLights, addVehicle, randomVehicles, file, seed, seconds, ticks, output,
    linearSearch]

/-- The name of the option, without its dashes. -/
def text : OptionName → String
  | addLight => "add-light"
  | randomLights => "random-lights"
  | addVehicle => "add-vehicle"
  | randomVehicles => "random-vehicles"
  | file => "file"
  | seed => "seed"
  | seconds => "seconds"
  | ticks => "ticks"
  | output => "output"
  | linearSearch => "linear-search"

/-- The option of a name. -/
def ofText? (name : String) : Option OptionName := all.find? (·.text == name)

/-- Whether the option has a value. -/
def hasValue (name : OptionName) : Bool := name != linearSearch

/-- Whether the option may be given more than once. -/
def repeatable (name : OptionName) : Bool := name == addLight || name == addVehicle

end OptionName

/-- Why no run can be made of the arguments. -/
inductive UsageError where
  /-- The arguments ask for help instead. -/
  | help
  | unknownArgument (argument : String)
  /-- A value is given to what has none. -/
  | unwantedValue (argument : String)
  | repeated (name : OptionName)
  | missingValue (name : OptionName)
  | malformedValue (name : OptionName) (value : String)
  | conflict (first second : OptionName)
deriving DecidableEq

namespace UsageError

/-- The text of the error. -/
def message : UsageError → String
  | help => "help was asked for"
  | unknownArgument argument => "unexpected argument " ++ Text.quoted argument
  | unwantedValue argument => "unexpected value in " ++ Text.quoted argument
  | repeated name => "--" ++ name.text ++ " is given more than once"
  | missingValue name => "--" ++ name.text ++ " wants a value"
  | malformedValue name value => "invalid value " ++ Text.quoted value ++ " for --" ++ name.text
  | conflict first second => "--" ++ first.text ++ " cannot be given with --" ++ second.text

end UsageError

/-! ## Single arguments -/

/-- What a single argument is. -/
inductive Argument where
  /-- The two dashes behind which no option stands. -/
  | separator
  | help (value : Option String)
  | option (name : OptionName) (value : Option String)
  /-- A dash and something that is no option. -/
  | unknown
  /-- Anything without a dash in front, and the lone dash. -/
  | plain
deriving DecidableEq

namespace Argument

/-- What stands before the first equals sign, and what behind it. -/
def splitValue (chars : List Char) : String × Option String :=
  let name := String.ofList (chars.takeWhile (· != '='))
  match chars.dropWhile (· != '=') with
  | [] => (name, none)
  | _ :: value => (name, some (String.ofList value))

/-- The argument of a text behind two dashes. -/
def ofLongName (chars : List Char) : Argument :=
  let (name, value) := splitValue chars
  if name == "help" then help value
  else
    match OptionName.ofText? name with
    | some found => option found value
    | none => unknown

/-- The argument of a text. -/
def ofText (text : String) : Argument :=
  match text.toList with
  | ['-', '-'] => separator
  | '-' :: '-' :: rest => ofLongName rest
  | '-' :: 'h' :: _ => help none
  | ['-'] => plain
  | '-' :: _ => unknown
  | _ => plain

end Argument

/-! ## Values -/

namespace Options

/-- The natural number that a value spells, if it fits 64 bits. -/
def naturalValue (name : OptionName) (value : String) : Except UsageError Nat :=
  match Number.natural? value with
  | some n => if n < UInt64.size then .ok n else .error (.malformedValue name value)
  | none => .error (.malformedValue name value)

/-- The path that a value spells. -/
def pathValue (name : OptionName) (value : String) : Except UsageError String :=
  if value.isEmpty then .error (.missingValue name) else .ok value

/-- The options with the value of one more option. -/
def set (options : Options) (name : OptionName) (value : String) : Except UsageError Options :=
  match name with
  | .addLight => .ok { options with addLight := options.addLight ++ [value] }
  | .addVehicle => .ok { options with addVehicle := options.addVehicle ++ [value] }
  | .randomLights => do
    return { options with randomLights := some (← naturalValue name value) }
  | .randomVehicles => do
    return { options with randomVehicles := some (← naturalValue name value) }
  | .file => do return { options with file := some (← pathValue name value) }
  | .output => do return { options with output := some (← pathValue name value) }
  | .seed => do
    return { options with seed := some (.ofNat (← naturalValue name value)) }
  | .ticks => do
    return { options with ticks := some (.ofNat (← naturalValue name value)) }
  | .seconds =>
    match Number.ofText? value with
    | some seconds => .ok { options with seconds := seconds }
    | none => .error (.malformedValue name value)
  | .linearSearch => .ok { options with linearSearch := true }

end Options

/-! ## All arguments -/

/-- The arguments read so far. -/
structure Reading where
  options : Options := {}
  /-- The names of these options. -/
  given : List OptionName := []
  /-- The option that waits to be put among them, and its value, if that is known yet. -/
  pending : Option (OptionName × Option String) := none
  /-- Whether the separator has been read. -/
  separated : Bool := false
deriving Inhabited

namespace Reading

/-- Puts an option among the others. A missing value is found first, then a repetition, then a value
of the wrong form. -/
def put (reading : Reading) (name : OptionName) (value : Option String) :
    Except UsageError Reading :=
  if value.isNone && name.hasValue then .error (.missingValue name)
  else if reading.given.contains name && !name.repeatable then .error (.repeated name)
  else do
    let options ← reading.options.set name (value.getD "")
    return { reading with options := options, given := reading.given ++ [name] }

/-- Puts the pending option among the others. -/
def putPending (reading : Reading) : Except UsageError Reading :=
  match reading.pending with
  | none => .ok reading
  | some (name, value) => { reading with pending := none }.put name value

/-- Reads one more argument. -/
def read (reading : Reading) (text : String) : Except UsageError Reading :=
  if reading.separated then .error (.unknownArgument text)
  else
    match Argument.ofText text with
    | .separator => .ok { reading with separated := true }
    | .unknown => .error (.unknownArgument text)
    | .plain =>
      match reading.pending with
      | some (name, none) => .ok { reading with pending := some (name, some text) }
      | _ => .error (.unknownArgument text)
    | .help (some _) => .error (.unwantedValue text)
    | .help none => do
      let _ ← reading.putPending
      throw .help
    | .option name none => do
      let reading ← reading.putPending
      if name.hasValue then return { reading with pending := some (name, none) }
      reading.put name none
    | .option name (some value) =>
      if name.hasValue then do
        let reading ← reading.putPending
        reading.put name (some value)
      else .error (.unwantedValue text)

/-- The options, at the end of the arguments. A run is as long as its seconds or as its ticks, not
both. -/
def finish (reading : Reading) : Except UsageError Options := do
  let reading ← reading.putPending
  if reading.given.contains .seconds && reading.given.contains .ticks then
    throw (.conflict .seconds .ticks)
  return reading.options

end Reading

/-- The options that the arguments give. The first fault decides. -/
def Options.ofArguments (arguments : List String) : Except UsageError Options := do
  let reading ← arguments.foldlM Reading.read {}
  reading.finish

end Phototaxis
