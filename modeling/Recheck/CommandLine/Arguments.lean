import Recheck.PreparedRun
import Recheck.Text.Count
/-!
# Arguments of the command line

From the words of a command line to what is asked for.  Options are described in a table for each command; the words are
first sorted by it into options with their values and other words, and then checked against what the command needs.
-/
namespace Recheck.CommandLine

/-- What a value must be. -/
inductive ValueKind where
  /-- Not empty. -/
  | path
  | text
  | count
  deriving DecidableEq

inductive OptionKind where
  | flag
  | value (kind : ValueKind)
  /-- Any word, even one that looks like an option; it may be given many times. -/
  | words
  deriving DecidableEq

structure OptionSpec where
  long : String
  short : Option Char
  kind : OptionKind

structure CommandSpec where
  options : List OptionSpec
  /-- Whether words that are no options are allowed. -/
  takesWords : Bool

/-- An option as given: its name and its value. -/
abbrev Given := List (String × String)

/-- The words of a command line, sorted; or a question about the program itself, which ends the sorting. -/
inductive Sorted where
  | all (given : Given) (words : List String)
  | help
  | version
  | invalid
  deriving DecidableEq

def CommandSpec.byLong? (c : CommandSpec) (name : String) : Option OptionSpec := c.options.find? (·.long == name)

def CommandSpec.byShort? (c : CommandSpec) (s : Char) : Option OptionSpec := c.options.find? (·.short == some s)

def looksLikeOption (w : String) : Bool :=
  match w.toList with
  | '-' :: _ :: _ => true
  | _             => false

def takesMany : OptionKind → Bool
  | .words => true
  | _      => false

/-- An option may be given once, unless it collects words; and a value must be of its kind. -/
def accepts (given : Given) (o : OptionSpec) (value : String) : Bool :=
  (takesMany o.kind || !given.any (·.1 == o.long)) &&
  match o.kind with
  | .value .path  => !value.isEmpty
  | .value .count => (Count.parse? value.toList).isSome
  | _             => true

/-- The flags in a word of one dash, up to an option that takes a value: what is left of the word for it, if anything. -/
def shorts (c : CommandSpec) (given : Given) : List Char → Sum (Given × Option (OptionSpec × Option String)) Sorted
  | [] => .inl (given, none)
  | s :: rest =>
    match c.byShort? s with
    | none =>
      if s = 'h' then .inr .help else if s = 'V' ∧ c.byLong? "version" ≠ none then .inr .version else .inr .invalid
    | some o =>
      match o.kind with
      | .flag =>
        if o.long = "version" then .inr .version
        else if accepts given o "" then shorts c (given ++ [(o.long, "")]) rest
        else .inr .invalid
      | _ =>
        match rest with
        | []           => .inl (given, some (o, none))
        | '=' :: value => .inl (given, some (o, some (String.ofList value)))
        | value        => .inl (given, some (o, some (String.ofList value)))

/-- Sorts words.  Words that are no options end the sorting when the command takes none of them: then they are left, in
order, behind those found so far. -/
def sortWords (c : CommandSpec) (trailing : Bool) (given : Given) (words : List String) : List String → Sorted
  | [] => .all given words
  | w :: rest =>
    if trailing then
      if c.takesWords then sortWords c true given (words ++ [w]) rest else .invalid
    else if w = "--" then sortWords c true given words rest
    else
      match w.toList with
      | '-' :: '-' :: name =>
        let name' := String.ofList (name.takeWhile (· != '='))
        let attached := match name.drop name'.length with
          | _ :: value => some (String.ofList value)
          | []         => none
        if name' = "help" ∧ attached = none then .help
        else match c.byLong? name' with
          | none   => .invalid
          | some o =>
            match o.kind, attached with
            | .flag, none =>
              if o.long = "version" then .version
              else if accepts given o "" then sortWords c false (given ++ [(o.long, "")]) words rest
              else .invalid
            | .flag, some _ => .invalid
            | _, some value =>
              if accepts given o value then sortWords c false (given ++ [(o.long, value)]) words rest else .invalid
            | kind, none =>
              match rest with
              | []             => .invalid
              | value :: rest' =>
                if (!takesMany kind && looksLikeOption value) || !accepts given o value then .invalid
                else sortWords c false (given ++ [(o.long, value)]) words rest'
      | '-' :: s :: more =>
        match shorts c given (s :: more) with
        | .inr r                                => r
        | .inl (given', none)                   => sortWords c false given' words rest
        | .inl (given', some (o, some value))   =>
          if accepts given' o value then sortWords c false (given' ++ [(o.long, value)]) words rest else .invalid
        | .inl (given', some (o, none)) =>
          match rest with
          | []             => .invalid
          | value :: rest' =>
            if (!takesMany o.kind && looksLikeOption value) || !accepts given' o value then .invalid
            else sortWords c false (given' ++ [(o.long, value)]) words rest'
      | _ => if c.takesWords then sortWords c false given (words ++ [w]) rest else .all given (w :: rest)

/-! ## The commands of this program -/

/-- What the command `check` asks for. -/
structure CheckRequest where
  analyzer : Path
  resourceDir : Path
  sdk : Option String
  sdkPath : Option Path
  flags : List String
  arc : Bool
  modules : Bool
  assertionsBlocked : Bool
  files : List Path

inductive Request where
  | xcode (run : RunRequest) (summary : Option Path)
  | check (request : CheckRequest)
  | sdks
  | help
  | version
  | invalid

def verbose : OptionSpec := ⟨"verbose", some 'v', .flag⟩

def pathOption (name : String) : OptionSpec := ⟨name, none, .value .path⟩

def flagOption (name : String) : OptionSpec := ⟨name, none, .flag⟩

def topSpec : CommandSpec := ⟨[verbose, ⟨"version", some 'V', .flag⟩], false⟩

def xcodeSpec : CommandSpec :=
  ⟨[verbose, pathOption "analyzer", pathOption "resource-dir", ⟨"jobs", some 'j', .value .count⟩,
    flagOption "only-latest", flagOption "debug", pathOption "settings", pathOption "summary"], false⟩

def checkSpec : CommandSpec :=
  ⟨[verbose, pathOption "analyzer", pathOption "resource-dir", ⟨"sdk", none, .value .text⟩, pathOption "sdk-path",
    ⟨"flag", none, .words⟩, flagOption "no-arc", flagOption "no-modules", flagOption "no-block-assertions"], true⟩

def sdksSpec : CommandSpec := ⟨[verbose], false⟩

def valueOf? (given : Given) (name : String) : Option String := given.lookup name

def pathOf? (given : Given) (name : String) : Option Path := (valueOf? given name).map Path.mk

def hasFlag (given : Given) (name : String) : Bool := (valueOf? given name).isSome

/-- The path of an option, or of a variable where the option is not given. -/
def pathOrVariable? (given : Given) (env : BuildEnv) (name variable_ : String) : Option Path :=
  match valueOf? given name with
  | some p => some ⟨p⟩
  | none   => (env.nonempty? variable_).map Path.mk

def analyzerVariable : String := "NULLARIHYON_ANALYZER"

def resourceDirVariable : String := "NULLARIHYON_RESOURCE_DIR"

/-- The request of sorted words of the command `xcode`. -/
def xcodeRequest (env : BuildEnv) (given : Given) : Request :=
  match pathOrVariable? given env "analyzer" analyzerVariable,
      pathOrVariable? given env "resource-dir" resourceDirVariable with
  | some analyzer, some resourceDir =>
    .xcode ⟨analyzer, resourceDir, (valueOf? given "jobs").bind fun n => Count.parse? n.toList,
      hasFlag given "only-latest", hasFlag given "debug", pathOf? given "settings"⟩ (pathOf? given "summary")
  | _, _ => .invalid

/-- The request of sorted words of the command `check`. -/
def checkRequest (env : BuildEnv) (given : Given) (files : List String) : Request :=
  if files.isEmpty || files.any String.isEmpty then .invalid
  else match pathOrVariable? given env "analyzer" analyzerVariable,
      pathOrVariable? given env "resource-dir" resourceDirVariable with
    | some analyzer, some resourceDir =>
      .check ⟨analyzer, resourceDir, valueOf? given "sdk", pathOf? given "sdk-path",
        (given.filter (·.1 == "flag")).map Prod.snd, !hasFlag given "no-arc", !hasFlag given "no-modules",
        !hasFlag given "no-block-assertions", files.map Path.mk⟩
    | _, _ => .invalid

def ofCommand (env : BuildEnv) (name : String) (args : List String) : Request :=
  let sorted := fun (spec : CommandSpec) (f : Given → List String → Request) =>
    match sortWords spec false [] [] args with
    | .all given words => f given words
    | .help            => .help
    | .version         => .version
    | .invalid         => .invalid
  match name with
  | "xcode" => sorted xcodeSpec fun given words => if words.isEmpty then xcodeRequest env given else .invalid
  | "check" => sorted checkSpec (checkRequest env)
  | "sdks"  => sorted sdksSpec fun _ words => if words.isEmpty then .sdks else .invalid
  | "help"  => match args with
    | []  => .help
    | [c] => if ["xcode", "check", "sdks", "help"].contains c then .help else .invalid
    | _   => .invalid
  | _ => .invalid

def request (env : BuildEnv) (args : List String) : Request :=
  match sortWords topSpec false [] [] args with
  | .all _ (name :: rest) => ofCommand env name rest
  | .all _ []             => .invalid
  | .help                 => .help
  | .version              => .version
  | .invalid              => .invalid

end Recheck.CommandLine
