import MaterialShader.Path

/-!
# Command line options

An option is written `--name value` or `--name=value`, a flag `--name`, and none of
them twice.  A value in a word of its own does not start with a hyphen, unless it is
the hyphen alone.  Words that belong to no option are refused, and so is a value that
its option cannot take.

## Main definitions

* `Options` — the values of the options.
* `Request`, `Request.ofWords` — what a command line asks for.
-/

namespace MaterialShader
namespace CommandLine

/-- The options that take a value. -/
inductive OptionName where
  /-- The file of the graph. -/
  | graph : OptionName
  /-- The id of the output node. -/
  | outputNode : OptionName
  /-- The file of the target catalog. -/
  | catalog : OptionName
  /-- The file of the configuration. -/
  | config : OptionName
  /-- The directory of the templates. -/
  | templates : OptionName
  /-- The largest number of permutations. -/
  | variantLimit : OptionName
  /-- The file the shader is written to. -/
  | out : OptionName
  deriving DecidableEq, Repr, Inhabited

/-- The flags. -/
inductive FlagName where
  /-- Generates a preview. -/
  | preview : FlagName
  /-- Keeps inactive lines as comments and lists the active fields. -/
  | debug : FlagName
  deriving DecidableEq, Repr, Inhabited

/-- The values of the options. -/
structure Options where
  /-- The file of the graph. -/
  graph : Option Path := none
  /-- The id of the output node. -/
  outputNode : Option String := none
  /-- The file of the target catalog. -/
  catalog : Option Path := none
  /-- The file of the configuration. -/
  config : Option Path := none
  /-- The directory of the templates. -/
  templates : Option Path := none
  /-- The largest number of permutations. -/
  variantLimit : Option Nat := none
  /-- The file the shader is written to. -/
  out : Option Path := none
  /-- A preview is generated. -/
  preview : Bool := false
  /-- Inactive lines are kept as comments and the active fields listed. -/
  debug : Bool := false
  deriving DecidableEq, Repr, Inhabited

/-! ### Values -/

/-- A value that is a path; the empty text is none. -/
def pathValue? (value : String) : Option Path := if value.isEmpty then none else some ⟨value⟩

/-- A value that is a count below `2 ^ 64`, in decimal digits after an optional plus
sign. -/
def countValue? (value : String) : Option Nat :=
  let digits :=
    match value.toList with
    | '+' :: rest => rest
    | cs => cs
  if digits.isEmpty || !digits.all Char.isDigit then none
  else
    let n := digits.foldl (fun n c => n * 10 + (c.toNat - '0'.toNat)) 0
    if n < Nat.pow 2 64 then some n else none

/-- An option that has no value yet, with one. -/
def fill? {α : Type} (old new : Option α) : Option (Option α) :=
  match old, new with
  | none, some v => some (some v)
  | _, _ => none

namespace Options

/-- The options with a value for one; nothing if it has one, or cannot take this
one. -/
def set? (o : Options) (name : OptionName) (value : String) : Option Options :=
  match name with
  | .graph => (fill? o.graph (pathValue? value)).map fun v => { o with graph := v }
  | .outputNode => (fill? o.outputNode (some value)).map fun v => { o with outputNode := v }
  | .catalog => (fill? o.catalog (pathValue? value)).map fun v => { o with catalog := v }
  | .config => (fill? o.config (pathValue? value)).map fun v => { o with config := v }
  | .templates => (fill? o.templates (pathValue? value)).map fun v => { o with templates := v }
  | .variantLimit =>
      (fill? o.variantLimit (countValue? value)).map fun v => { o with variantLimit := v }
  | .out => (fill? o.out (pathValue? value)).map fun v => { o with out := v }

/-- The options with a flag; nothing if it is there already. -/
def raise? (o : Options) : FlagName → Option Options
  | .preview => if o.preview then none else some { o with preview := true }
  | .debug => if o.debug then none else some { o with debug := true }

end Options

/-! ### Words -/

/-- What a command line asks for. -/
inductive Request where
  /-- To generate the shader of a graph. -/
  | generate (graph : Path) (options : Options) : Request
  /-- To print the version. -/
  | version : Request
  /-- To print how the program is used. -/
  | help : Request
  /-- Nothing that is understood. -/
  | misuse : Request
  deriving DecidableEq, Repr, Inhabited

/-- What the name of a word with two hyphens stands for. -/
inductive LongName where
  /-- An option with a value. -/
  | option (name : OptionName) : LongName
  | flag (name : FlagName) : LongName
  | version : LongName
  /-- The usage. -/
  | help : LongName
  deriving DecidableEq, Repr, Inhabited

/-- The names of words with two hyphens. -/
def longNames : List (String × LongName) := [
  ("graph", .option .graph), ("output-node", .option .outputNode),
  ("catalog", .option .catalog), ("config", .option .config),
  ("templates", .option .templates), ("variant-limit", .option .variantLimit),
  ("out", .option .out), ("preview", .flag .preview), ("debug", .flag .debug),
  ("version", .version), ("help", .help)]

/-- A word that starts like an option. -/
def startsLikeOption (word : String) : Bool :=
  word.toList.head? == some '-' && word != "-"

/-- The name of a word with two hyphens, and the value after an equals sign. -/
def longWord? (word : String) : Option (String × Option String) :=
  match word.toList with
  | '-' :: '-' :: rest =>
      let name := String.ofList (rest.takeWhile (· != '='))
      match rest.dropWhile (· != '=') with
      | _ :: value => some (name, some (String.ofList value))
      | [] => some (name, none)
  | _ => none

/-- The request of complete options; the configuration may also be named by the
environment, and the graph has to be given. -/
def Request.ofOptions (environment : Option String) (o : Options) : Request :=
  let config? : Option (Option Path) :=
    match o.config, environment with
    | some p, _ => some (some p)
    | none, some value => (pathValue? value).map some
    | none, none => some none
  match o.graph, config? with
  | some graph, some config => .generate graph { o with config := config }
  | _, _ => .misuse

/-- Reads the words that are left, where `pending` is the option whose value comes
next. -/
def Request.read (environment : Option String) (o : Options) (pending : Option OptionName) :
    List String → Request
  | [] =>
      match pending with
      | none => .ofOptions environment o
      | some _ => .misuse
  | word :: rest =>
      match pending with
      | some name =>
          if startsLikeOption word then .misuse
          else
            match o.set? name word with
            | some o => read environment o none rest
            | none => .misuse
      | none =>
          match longWord? word with
          | none =>
              match word.toList with
              | '-' :: 'V' :: _ => .version
              | '-' :: 'h' :: _ => .help
              | _ => .misuse
          | some (name, value?) =>
              match longNames.lookup name, value? with
              | some (.option name), some value =>
                  match o.set? name value with
                  | some o => read environment o none rest
                  | none => .misuse
              | some (.option name), none => read environment o (some name) rest
              | some (.flag name), none =>
                  match o.raise? name with
                  | some o => read environment o none rest
                  | none => .misuse
              | some .version, none => .version
              | some .help, none => .help
              | none, none =>
                  -- two hyphens alone end the options, and nothing may follow them
                  if name.isEmpty && rest.isEmpty then .ofOptions environment o else .misuse
              | _, _ => .misuse

/-- The request of a command line; `environment` is the configuration that the
environment names. -/
def Request.ofWords (environment : Option String) (words : List String) : Request :=
  .read environment {} none words

end CommandLine
end MaterialShader
