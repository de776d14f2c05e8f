import ModelSchemas.Text.Basic

/-!
# Command line options

Options have long names, which may be shortened as long as they stay unambiguous, and some have a
letter too. Letters may be run together, and the value of an option may be attached to it or be the
next argument. The kind of every argument is settled before any of them takes effect.
-/

namespace ModelSchemas

namespace CommandLine

/-! ## Flags -/

/-- The options. -/
inductive Flag where
  | help
  | version
  | model
  | output
  | manifest
  | stdout
  | dryRun
  | fileName
  | schemaModule
  | clientModule
  | alwaysLazy
  | writeManifest
  | verbose
  | quiet
deriving DecidableEq, Repr

namespace Flag

/-- Whether an option has a value. -/
def takesValue : Flag → Bool
  | model | output | fileName | schemaModule | clientModule => true
  | _ => false

/-- The names of the options. -/
def names : List (Text × Flag) :=
  [("--help", help), ("--version", version), ("--model", model), ("--output", output),
    ("--manifest", manifest), ("--stdout", stdout), ("--dry-run", dryRun),
    ("--file-name", fileName), ("--schema-module", schemaModule),
    ("--client-module", clientModule), ("--always-lazy", alwaysLazy),
    ("--write-manifest", writeManifest), ("--verbose", verbose), ("--quiet", quiet)]

/-- The option with a letter. -/
def ofLetter? : Char → Option Flag
  | 'h' => some help
  | 'm' => some model
  | 'o' => some output
  | 'v' => some verbose
  | 'q' => some quiet
  | _ => none

/-- The options whose name starts with a text. -/
def startingWith (start : Text) : List Flag :=
  (names.filter fun entry => start.isPrefixOf entry.1).map Prod.snd

end Flag

/-! ## Kinds of arguments -/

/-- Why a command line cannot be read. -/
inductive Misuse where
  | ambiguous (argument : String)
  | missingValue (flag : Flag)
  | unexpectedValue (flag : Flag)
  | unrecognized
deriving DecidableEq, Repr

/-- What an argument is. An option written as a name may have a value after an equals sign; one
written as a letter may have a text attached to it, which starts with an equals sign or not. -/
inductive Argument where
  | plain (text : String)
  | unknown
  | named (flag : Flag) (value : Option Text)
  | lettered (flag : Flag) (separated : Bool) (attached : Option Text)
deriving DecidableEq, Repr

/-- The parts of a text before and after its first equals sign. -/
def splitEquals (t : Text) : Text × Option Text :=
  let start := t.takeWhile (· ≠ '=')
  match t.drop start.length with
  | _ :: rest => (start, some rest)
  | [] => (start, none)

/-- Whether a text after a dash makes it a negative number. -/
def isNumeral (t : Text) : Bool :=
  let whole := t.takeWhile Char.isDigit
  match t.drop whole.length with
  | [] => !whole.isEmpty
  | '.' :: fraction => !fraction.isEmpty && fraction.all Char.isDigit
  | _ => false

/-- What an argument that starts with a dash is if it is no option: negative numbers and texts with
a space are plain. -/
def orPlain (text : String) : Argument :=
  if isNumeral (text.toList.drop 1) || text.toList.contains ' ' then .plain text else .unknown

/-- Settles what an argument is. -/
def Argument.ofText (text : String) : Except Misuse Argument :=
  match text.toList with
  | '-' :: '-' :: name =>
    let (start, value) := splitEquals ('-' :: '-' :: name)
    match Flag.names.lookup start, Flag.startingWith start with
    | some flag, _ => .ok (.named flag value)
    | none, [flag] => .ok (.named flag value)
    | none, [] => .ok (orPlain text)
    | none, _ => .error (.ambiguous text)
  | ['-'] => .ok (.plain text)
  | '-' :: letter :: rest =>
    match Flag.ofLetter? letter, rest with
    | none, _ => .ok (orPlain text)
    | some flag, [] => .ok (.lettered flag false none)
    | some flag, '=' :: value => .ok (.lettered flag true (some value))
    | some flag, rest => .ok (.lettered flag false (some rest))
  | _ => .ok (.plain text)

/-- Settles what all arguments are. After two dashes that stand alone there are no options; the
dashes themselves are no value. -/
def Argument.ofTexts : List String → Except Misuse (List Argument)
  | [] => .ok []
  | text :: texts => do
    if text = "--" then return .unknown :: texts.map .plain
    return (← Argument.ofText text) :: (← ofTexts texts)

/-! ## Options -/

/-- What a command line asks for. -/
structure Options where
  model : Option String
  output : Option String
  manifest : Bool
  stdout : Bool
  dryRun : Bool
  fileName : Option String
  schemaModule : Option String
  clientModule : Option String
  alwaysLazy : Bool
  writeManifest : Bool
  verbosity : Nat
  quiet : Bool
deriving DecidableEq, Repr

/-- The options of an empty command line. -/
def Options.default : Options where
  model := none
  output := none
  manifest := false
  stdout := false
  dryRun := false
  fileName := none
  schemaModule := none
  clientModule := none
  alwaysLazy := false
  writeManifest := false
  verbosity := 0
  quiet := false

/-- What a command line comes to. Help and version end it where they stand. -/
inductive Invocation where
  | run (options : Options)
  | showHelp
  | showVersion
  | misused (misuse : Misuse)
deriving DecidableEq, Repr

/-- One option takes effect, unless it ends the command line. -/
def Options.apply (o : Options) (flag : Flag) (value : String) : Except Invocation Options :=
  match flag with
  | .help => .error .showHelp
  | .version => .error .showVersion
  | .model => .ok { o with model := some value }
  | .output => .ok { o with output := some value }
  | .manifest => .ok { o with manifest := true }
  | .stdout => .ok { o with stdout := true }
  | .dryRun => .ok { o with dryRun := true }
  | .fileName => .ok { o with fileName := some value }
  | .schemaModule => .ok { o with schemaModule := some value }
  | .clientModule => .ok { o with clientModule := some value }
  | .alwaysLazy => .ok { o with alwaysLazy := true }
  | .writeManifest => .ok { o with writeManifest := true }
  | .verbose => .ok { o with verbosity := o.verbosity + 1 }
  | .quiet => .ok { o with quiet := true }

/-! ## Reading -/

/-- What one argument asks for: options in order, each with its value, whether it has a letter that
is no option, and whether the next argument is the value of the last option. -/
structure Effect where
  settled : List (Flag × String)
  unrecognized : Bool
  usesNext : Bool

/-- What an option without a text attached asks for, given the argument after it. -/
def ofBare (flag : Flag) (next : Option Argument) : Except Misuse Effect :=
  match flag.takesValue, next with
  | false, _ => .ok ⟨[(flag, "")], false, false⟩
  | true, some (.plain value) => .ok ⟨[(flag, value)], false, true⟩
  | true, _ => .error (.missingValue flag)

/-- An effect with an option before it. -/
def Effect.after (flag : Flag) (r : Effect) : Effect :=
  { r with settled := (flag, "") :: r.settled }

/-- What a letter with a text attached asks for: its value, or more letters. -/
def ofAttached (next : Option Argument) (flag : Flag) (separated : Bool) :
    Text → Except Misuse Effect
  | [] =>
    if flag.takesValue then .ok ⟨[(flag, "")], false, false⟩ else .error (.unexpectedValue flag)
  | c :: rest =>
    if flag.takesValue then .ok ⟨[(flag, String.ofList (c :: rest))], false, false⟩
    else if separated || c = '-' then .error (.unexpectedValue flag)
    else
      match Flag.ofLetter? c, rest with
      | none, _ => .ok ⟨[(flag, "")], true, false⟩
      | some letter, [] => (ofBare letter next).map (Effect.after flag)
      | some letter, '=' :: value => (ofAttached next letter true value).map (Effect.after flag)
      | some letter, d :: more =>
        (ofAttached next letter false (d :: more)).map (Effect.after flag)

/-- What an argument asks for, given the one after it. -/
def Argument.effect (argument : Argument) (next : Option Argument) : Except Misuse Effect :=
  match argument with
  | .plain _ | .unknown => .ok ⟨[], true, false⟩
  | .named flag none => ofBare flag next
  | .named flag (some value) =>
    if flag.takesValue then .ok ⟨[(flag, String.ofList value)], false, false⟩
    else .error (.unexpectedValue flag)
  | .lettered flag _ none => ofBare flag next
  | .lettered flag separated (some attached) => ofAttached next flag separated attached

/-- Several options take effect. -/
def Options.applyAll (o : Options) (settled : List (Flag × String)) : Except Invocation Options :=
  settled.foldlM (fun o entry => o.apply entry.1 entry.2) o

/-- Reads arguments one after another. `skip` says that the first is the value of the option before
it, `unrecognized` that some argument so far made no sense. -/
def readAll (o : Options) (skip unrecognized : Bool) : List Argument → Except Invocation Options
  | [] => if unrecognized then .error (.misused .unrecognized) else .ok o
  | argument :: rest =>
    if skip then readAll o false unrecognized rest
    else
      match argument.effect rest.head? with
      | .error misuse => .error (.misused misuse)
      | .ok r =>
        match o.applyAll r.settled with
        | .error invocation => .error invocation
        | .ok o => readAll o r.usesNext (unrecognized || r.unrecognized) rest

/-- What a command line comes to. -/
def Invocation.ofArguments (texts : List String) : Invocation :=
  match Argument.ofTexts texts with
  | .error misuse => .misused misuse
  | .ok arguments =>
    match readAll .default false false arguments with
    | .ok options => .run options
    | .error invocation => invocation

end CommandLine

end ModelSchemas
