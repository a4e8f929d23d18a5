import ModelSchema.Path

/-!
# Arguments

The arguments of the program name a command, with switches before and after it. A switch has a long
and a short name; short ones may be put together (`-vc FILE`), and a value may follow its switch or
be attached to it (`--config=FILE`, `-cFILE`). No switch may stand twice on one side of the command.
-/

namespace ModelSchema

/-- What the program is asked to do. -/
inductive Command where
  /-- Check the project and write a report. -/
  | check (output : Path) (markdown : Option Path)
  /-- Check the project and write its scripts. -/
  | generate (folder : Option Path)
  /-- Print the fingerprint of the project. -/
  | fingerprint
deriving DecidableEq, Repr

/-- A command with the switches that all commands share. -/
structure Invocation where
  config : Option Path
  isVerbose : Bool
  command : Command
deriving DecidableEq, Repr

namespace Command

/-- Why no command is run. -/
inductive Stop where
  /-- The arguments make no sense. -/
  | usage
  /-- The user asks how the program is used. -/
  | help
  /-- The user asks which version the program is. -/
  | version
deriving DecidableEq, Repr

/-! ## Switches -/

inductive Topic where
  | config
  | verbose
  | help
  | version
  | output
  | markdown
  | folder
deriving DecidableEq, Repr

structure Switch where
  topic : Topic
  short : Char
  long : String
  takesValue : Bool

def sharedSwitches : List Switch :=
  [⟨.config, 'c', "config", true⟩, ⟨.verbose, 'v', "verbose", false⟩, ⟨.help, 'h', "help", false⟩]

def outerSwitches : List Switch :=
  ⟨.version, 'V', "version", false⟩ :: sharedSwitches

/-- The names of the commands, with the switches after each. -/
def commands : List (String × List Switch) :=
  [("check",
      ⟨.output, 'o', "output", true⟩ :: ⟨.markdown, 'm', "markdown", true⟩ :: sharedSwitches),
    ("generate", ⟨.folder, 'o', "output-dir", true⟩ :: sharedSwitches),
    ("fingerprint", sharedSwitches)]

abbrev Given := List (Topic × String)

def Given.add (given : Given) (topic : Topic) (value : String) : Except Stop Given :=
  if given.any (·.1 == topic) then .error .usage
  else
    match topic with
    | .help => .error .help
    | .version => .error .version
    | topic => .ok ((topic, value) :: given)

def Given.addValue (given : Given) (topic : Topic) (value : String) : Except Stop Given :=
  if value = "" then .error .usage else given.add topic value

/-- Read an argument of short switches. The second part of the result is a switch that still needs
its value. -/
def shorts (switches : List Switch) (given : Given) :
    List Char → Except Stop (Given × Option Topic)
  | [] => .ok (given, none)
  | c :: rest =>
    match switches.find? (·.short == c) with
    | none => .error .usage
    | some switch =>
      if switch.takesValue then
        match rest with
        | [] => .ok (given, some switch.topic)
        | '=' :: value => (given.addValue switch.topic (String.ofList value)).map (·, none)
        | value => (given.addValue switch.topic (String.ofList value)).map (·, none)
      else
        match given.add switch.topic "" with
        | .ok given => shorts switches given rest
        | .error stop => .error stop

def long (switches : List Switch) (given : Given) (chars : List Char) :
    Except Stop (Given × Option Topic) :=
  let name := String.ofList (chars.takeWhile (· != '='))
  match switches.find? (·.long == name) with
  | none => .error .usage
  | some switch =>
    match chars.dropWhile (· != '='), switch.takesValue with
    | '=' :: value, true => (given.addValue switch.topic (String.ofList value)).map (·, none)
    | _, true => .ok (given, some switch.topic)
    | [], false => (given.add switch.topic "").map (·, none)
    | _, false => .error .usage

/-- Whether an argument is a switch or the end of switches. -/
def isSwitch (arg : String) : Bool :=
  arg != "-" && Text.startsWith "-" arg

/-- Read switches up to the first argument that is none. `pending` is a switch that needs its
value. -/
def switches (known : List Switch) (given : Given) (pending : Option Topic) :
    List String → Except Stop (Given × List String)
  | [] => if pending.isSome then .error .usage else .ok (given, [])
  | arg :: rest =>
    match pending with
    | some topic =>
      if isSwitch arg then .error .usage
      else
        match given.addValue topic arg with
        | .ok given => switches known given none rest
        | .error stop => .error stop
    | none =>
      if arg = "--" then if rest.isEmpty then .ok (given, []) else .error .usage
      else if isSwitch arg then
        let outcome :=
          match arg.toList with
          | '-' :: '-' :: chars => long known given chars
          | chars => shorts known given (chars.drop 1)
        match outcome with
        | .ok (given, pending) => switches known given pending rest
        | .error stop => .error stop
      else .ok (given, arg :: rest)

/-! ## Commands -/

def Given.path? (given : Given) (topic : Topic) : Option Path :=
  (given.lookup topic).map Path.mk

def ofGiven? (name : String) (given : Given) : Option Command :=
  match name with
  | "check" => some (.check ((given.path? .output).getD ⟨"report.json"⟩) (given.path? .markdown))
  | "generate" => some (.generate (given.path? .folder))
  | "fingerprint" => some .fingerprint
  | _ => none

/-- What is meant by asking for help on a command. -/
def helpOn : List String → Stop
  | [] => .help
  | [name] => if name = "help" || (commands.lookup name).isSome then .help else .usage
  | _ => .usage

/-- Read the arguments of the program. A switch after the command wins over the same switch before
it. -/
def parse (args : List String) : Except Stop Invocation := do
  let (outer, rest) ← switches outerSwitches [] none args
  match rest with
  | [] => throw .usage
  | "help" :: names => throw (helpOn names)
  | name :: rest =>
    match commands.lookup name with
    | none => throw .usage
    | some known =>
      let (inner, extra) ← switches known [] none rest
      match extra, ofGiven? name inner with
      | [], some command =>
        return {
          config := (inner.path? .config).or (outer.path? .config)
          isVerbose := (inner ++ outer).any (·.1 == .verbose)
          command }
      | _, _ => throw .usage

end Command

end ModelSchema
