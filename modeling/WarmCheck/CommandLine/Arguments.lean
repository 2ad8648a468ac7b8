import WarmCheck.Path

/-!
# Arguments

The command line: a verb and its options, or a question about the program itself.

* `Verb`, `Flag`: what can be asked for, and with which options.
* `Invocation.ofArguments`: the command that a list of arguments stands for.
-/

namespace WarmCheck.CommandLine

/-- The name of the program. -/
def programName : String := "checkd"

/-- The version of the program. -/
def programVersion : String := "0.1.0"

/-- What the program can be asked to do. -/
inductive Verb where
  | start
  | check
  | stop
  | status
  deriving DecidableEq, Repr

/-- An option of a verb. -/
inductive Flag where
  | root
  | tsconfig
  | json
  deriving DecidableEq, Repr

/-- The name of an option, without the dashes. -/
def Flag.name : Flag → String
  | root => "root"
  | tsconfig => "tsconfig"
  | json => "json"

/-- Whether an option has a value. -/
def Flag.takesValue : Flag → Bool
  | root | tsconfig => true
  | json => false

namespace Verb

/-- All verbs. -/
def all : List Verb := [start, check, stop, status]

/-- The word for a verb. -/
def name : Verb → String
  | start => "start"
  | check => "check"
  | stop => "stop"
  | status => "status"

/-- The options of a verb. -/
def flags : Verb → List Flag
  | start | check => [.root, .tsconfig]
  | stop => [.root]
  | status => [.root, .json]

/-- The verb that a word stands for. -/
def ofWord? (word : Bytes) : Option Verb := all.find? fun v => Utf8.ofString v.name = word

/-- The option of a verb with this name. -/
def flag? (v : Verb) (name : Bytes) : Option Flag :=
  v.flags.find? fun f => Utf8.ofString f.name = name

end Verb

/-- The values of the options that were given. -/
structure Settings where
  root : Option Path := none
  tsconfig : Option Path := none
  json : Bool := false
  deriving DecidableEq, Repr

namespace Settings

/-- Whether an option was given. -/
def has (s : Settings) : Flag → Bool
  | .root => s.root.isSome
  | .tsconfig => s.tsconfig.isSome
  | .json => s.json

/-- With an option and its value. -/
def set (s : Settings) (f : Flag) (value : Bytes) : Settings :=
  match f with
  | .root => { s with root := some ⟨value⟩ }
  | .tsconfig => { s with tsconfig := some ⟨value⟩ }
  | .json => { s with json := true }

/-- The directory that the command is about: that given, or the current one. -/
def rootPath (s : Settings) : Path := s.root.getD (.ofString ".")

end Settings

/-- Why a list of arguments stands for no command. -/
inductive UsageError where
  | noVerb
  | unknownVerb (word : Bytes)
  | unexpected (verb : Option Verb) (argument : Bytes)
  | noValue (flag : Flag)
  | needlessValue (verb : Option Verb) (flag value : Bytes)
  | repeated (verb : Verb) (flag : Flag)
  deriving DecidableEq, Repr

/-- What help is wanted about. -/
inductive Topic where
  | program
  | verb (verb : Verb)
  | help
  deriving DecidableEq, Repr

/-- What a list of arguments asks for. -/
inductive Invocation where
  | run (verb : Verb) (settings : Settings)
  | help (topic : Topic)
  | version
  deriving DecidableEq, Repr

/-! ## Shapes of arguments -/

/-- An argument by its shape. -/
inductive Shape where
  /-- Two dashes: no options follow. -/
  | terminator
  /-- A name after two dashes, and the value after an equals sign. -/
  | long (name : Bytes) (value : Option Bytes)
  /-- Letters after one dash. -/
  | short (letters : Bytes)
  | word (word : Bytes)
  deriving DecidableEq, Repr

/-- A name and what follows the first equals sign. -/
def splitValue (bs : Bytes) : Bytes × Option Bytes :=
  match bs.dropWhile (· ≠ 61) with
  | _ :: value => (bs.takeWhile (· ≠ 61), some value)
  | [] => (bs, none)

/-- The shape of an argument. A single dash is a word. -/
def Shape.of (argument : Bytes) : Shape :=
  match argument with
  | [45, 45] => .terminator
  | 45 :: 45 :: bs => let (name, value) := splitValue bs; .long name value
  | [45] => .word argument
  | 45 :: bs => .short bs
  | bs => .word bs

/-- Whether an argument can be the value of the option before it. -/
def isValue (argument : Bytes) : Bool :=
  match Shape.of argument with
  | .word _ => true
  | _ => false

/-! ## Reading a command -/

/-- The option is given this value, which must not be empty; no option is given twice. -/
def give (v : Verb) (s : Settings) (f : Flag) (value : Bytes) : Except UsageError Settings :=
  if s.has f then .error (.repeated v f)
  else if f.takesValue ∧ value = [] then .error (.noValue f)
  else .ok (s.set f value)

/-- The long option for help. -/
def helpWord : Bytes := Utf8.ofString "help"

/-- The command of a verb, where `s` was given so far. -/
def readVerb (v : Verb) (s : Settings) : List Bytes → Except UsageError Invocation
  | [] => .ok (.run v s)
  | argument :: rest =>
    match Shape.of argument with
    | .terminator =>
      match rest with
      | [] => .ok (.run v s)
      | word :: _ => .error (.unexpected v word)
    | .word word => .error (.unexpected v word)
    | .short letters =>
      if letters.head? = some 104 then .ok (.help (.verb v)) else .error (.unexpected v argument)
    | .long name value =>
      if name = helpWord then
        match value with
        | some value => .error (.needlessValue v name value)
        | none => .ok (.help (.verb v))
      else
        match v.flag? name with
        | none => .error (.unexpected v argument)
        | some f =>
          if f.takesValue then
            match value, rest with
            | some value, rest => (give v s f value).bind (readVerb v · rest)
            | none, value :: rest =>
              if isValue value then (give v s f value).bind (readVerb v · rest)
              else .error (.noValue f)
            | none, [] => .error (.noValue f)
          else
            match value with
            | some value => .error (.needlessValue v name value)
            | none => (give v s f []).bind (readVerb v · rest)

/-- The topic that words after the word for help stand for. -/
def readTopic : List Bytes → Except UsageError Invocation
  | [] => .ok (.help .program)
  | word :: rest =>
    match Verb.ofWord? word, rest with
    | some v, [] => .ok (.help (.verb v))
    | some _, word :: _ => .error (.unknownVerb word)
    | none, rest =>
      if word = helpWord then
        match rest with
        | [] => .ok (.help .help)
        | word :: _ => .error (.unknownVerb word)
      else .error (.unknownVerb word)

namespace Invocation

/-- What a list of arguments asks for. -/
def ofArguments : List Bytes → Except UsageError Invocation
  | [] => .error .noVerb
  | argument :: rest =>
    match Shape.of argument with
    | .terminator => .error .noVerb
    | .word word =>
      match Verb.ofWord? word with
      | some v => readVerb v {} rest
      | none => if word = helpWord then readTopic rest else .error (.unknownVerb word)
    | .short letters =>
      if letters.head? = some 104 then .ok (.help .program)
      else if letters.head? = some 86 then .ok .version
      else .error (.unexpected none argument)
    | .long name value =>
      if name = helpWord ∨ name = Utf8.ofString "version" then
        match value with
        | some value => .error (.needlessValue none name value)
        | none => .ok (if name = helpWord then .help .program else .version)
      else .error (.unexpected none argument)

end Invocation

end WarmCheck.CommandLine
