import Mathlib
import Simbus.Config.Lexer

/-!
# The grammar of the configuration file

`config.ypp`: the sections with their items, the actions on the static variables,
and the recovery of bison at the items with an error.
-/

namespace Simbus.Config

/-! ## Records -/

/-- What the configuration says of a `struct bus_device_plug`. -/
structure BusDevicePlug where
  name : Text
  hostFlag : Bool
  ident : BitVec 32

/-- What a configuration file adds to the server. -/
inductive Call where
  | serviceAddBus
      (port name protocol : Text)
      (devices : Text → Option BusDevicePlug)
      (options : Text → Option Text)
  | processAdd
      (name exec stdin stdout stderr : Text)
      (env : Text → Option Text)

/-- The static variables of the parser. -/
structure Statics where
  name : Text
  busPort : BitVec 32
  busPipe : Text
  busProtocol : Text
  busDevices : Text → Option BusDevicePlug
  busOptions : Text → Option Text
  procExec : Text
  procStdin : Text
  procStdout : Text
  procStderr : Text
  procEnv : Text → Option Text

/-- Nothing in a map. -/
def noEntries {α : Type} : Text → Option α :=
  fun _ => none

namespace Statics

/-- `start_new_bus`. -/
def startNewBus (use : Statics) : Statics :=
  { use with
    busPort := 0
    busPipe := []
    name := []
    busProtocol := []
    busDevices := noEntries
    busOptions := noEntries }

/-- `add_bus_option` with a text. -/
def addBusOption (use : Statics) (key value : Text) : Statics :=
  { use with busOptions := Function.update use.busOptions key (some value) }

/-- `add_bus_option` with a number, which is printed with `%u`. -/
def addBusOptionNumber (use : Statics) (key : Text) (value : BitVec 32) : Statics :=
  use.addBusOption key (Nat.toDigits 10 value.toNat)

/-- `add_device_to_bus`. -/
def addDeviceToBus
    (use : Statics)
    (devid : BitVec 32)
    (devname : Text)
    (hostFlag : Bool) : Statics :=
  { use with
    busDevices :=
      Function.update use.busDevices devname
        (some { name := devname, hostFlag := hostFlag, ident := devid }) }

/-- The key of the bus map. -/
def busKey (use : Statics) : Text :=
  if use.busPipe.length = 0 then
    "tcp:".toList ++ Nat.toDigits 10 use.busPort.toNat
  else
    "pipe:".toList ++ use.busPipe

/-- `wrap_up_new_bus`. -/
def wrapUpNewBus (use : Statics) : Call :=
  .serviceAddBus use.busKey use.name use.busProtocol use.busDevices use.busOptions

/-- `start_new_process`. -/
def startNewProcess (use : Statics) : Statics :=
  { use with
    name := []
    procExec := []
    procStdin := "/dev/null".toList
    procStdout := "/dev/null".toList
    procStderr := []
    procEnv := noEntries }

/-- `wrap_up_new_process`. -/
def wrapUpNewProcess (use : Statics) : Call :=
  .processAdd use.name use.procExec use.procStdin use.procStdout use.procStderr
    use.procEnv

end Statics

/-! ## Items -/

/-- The symbols of the grammar on the right of the items. -/
inductive Symbol where
  | keyword (keyword : Keyword)
  | integer
  | string
  | identifier
  | char (char : Char)
  | error
  deriving DecidableEq, Repr

/-- The symbol of a token. -/
def Token.symbol : Token → Symbol
  | .keyword word => .keyword word
  | .integer _ => .integer
  | .string _ => .string
  | .identifier _ => .identifier
  | .char mark => .char mark

/-- The alternatives of `bus_item`. -/
def busItems : List (List Symbol) :=
  [[.keyword .port, .char '=', .integer, .char ';'],
    [.keyword .pipe, .char '=', .string, .char ';'],
    [.keyword .name, .char '=', .string, .char ';'],
    [.keyword .protocol, .char '=', .string, .char ';'],
    [.keyword .device, .integer, .string, .char ';'],
    [.keyword .host, .integer, .string, .char ';'],
    [.identifier, .char '=', .string, .char ';'],
    [.identifier, .char '=', .integer, .char ';'],
    [.error, .char ';']]

/-- What the actions of `bus_item` do; the one of the error only counts it. -/
def busAction : List Token → Statics → Statics
  | [.keyword .port, _, .integer value, _], use => { use with busPort := value }
  | [.keyword .pipe, _, .string text, _], use => { use with busPipe := text }
  | [.keyword .name, _, .string text, _], use => { use with name := text }
  | [.keyword .protocol, _, .string text, _], use =>
      { use with busProtocol := text }
  | [.keyword .device, .integer devid, .string devname, _], use =>
      use.addDeviceToBus devid devname false
  | [.keyword .host, .integer devid, .string devname, _], use =>
      use.addDeviceToBus devid devname true
  | [.identifier key, _, .string value, _], use => use.addBusOption key value
  | [.identifier key, _, .integer value, _], use =>
      use.addBusOptionNumber key value
  | _, use => use

/-- The alternatives of `process_item`. -/
def processItems : List (List Symbol) :=
  [[.keyword .name, .char '=', .string, .char ';'],
    [.keyword .exec, .char '=', .string, .char ';'],
    [.keyword .stdin, .char '=', .string, .char ';'],
    [.keyword .stdout, .char '=', .string, .char ';'],
    [.keyword .stderr, .char '=', .string, .char ';'],
    [.keyword .env, .string, .char '=', .string, .char ';'],
    [.error, .char '=', .string, .char ';'],
    [.error, .char ';']]

/-- What the actions of `process_item` do; those of the errors only count them. -/
def processAction : List Token → Statics → Statics
  | [.keyword .name, _, .string text, _], use => { use with name := text }
  | [.keyword .exec, _, .string text, _], use => { use with procExec := text }
  | [.keyword .stdin, _, .string text, _], use => { use with procStdin := text }
  | [.keyword .stdout, _, .string text, _], use => { use with procStdout := text }
  | [.keyword .stderr, _, .string text, _], use => { use with procStderr := text }
  | [.keyword .env, .string key, _, .string value, _], use =>
      { use with procEnv := Function.update use.procEnv key (some value) }
  | _, use => use

/-! ## Sections -/

/-- The two kinds of sections. -/
inductive SectionKind where
  | bus
  | process
  deriving DecidableEq, Repr

namespace SectionKind

/-- The alternatives of the items. -/
def items : SectionKind → List (List Symbol)
  | .bus => busItems
  | .process => processItems

/-- The actions of the items. -/
def action : SectionKind → List Token → Statics → Statics
  | .bus => busAction
  | .process => processAction

/-- The action behind the keyword. -/
def start : SectionKind → Statics → Statics
  | .bus => Statics.startNewBus
  | .process => Statics.startNewProcess

/-- The action behind the closing brace. -/
def wrapUp : SectionKind → Statics → Call
  | .bus => Statics.wrapUpNewBus
  | .process => Statics.wrapUpNewProcess

/-- The keyword of a section. -/
def keyword : SectionKind → Keyword
  | .bus => .bus
  | .process => .process

end SectionKind

/-- What has been shifted of an item, maybe behind the symbol `error`. -/
structure Pending where
  error : Bool
  tokens : List Token
  deriving DecidableEq, Repr

namespace Pending

/-- No item has begun. -/
def nothing : Pending :=
  { error := false, tokens := [] }

/-- The parser has recovered from a syntax error. -/
def recovered : Pending :=
  { error := true, tokens := [] }

/-- The symbols on the stack. -/
def symbols (pending : Pending) : List Symbol :=
  (if pending.error then [.error] else []) ++ pending.tokens.map Token.symbol

/-- Shift a token. -/
def push (pending : Pending) (token : Token) : Pending :=
  { pending with tokens := pending.tokens ++ [token] }

end Pending

namespace SectionKind

/-- An item can begin with the symbols. -/
def viable (kind : SectionKind) (pending : Pending) : Bool :=
  kind.items.any (pending.symbols.isPrefixOf ·)

/--
The token is shifted.  If it cannot be, the stack is popped down to the items,
`error` is shifted, and the token after it unless it is discarded.
-/
def shift (kind : SectionKind) (pending : Pending) (token : Token) : Pending :=
  if kind.viable (pending.push token) then
    pending.push token
  else if kind.viable (Pending.recovered.push token) && pending != .recovered then
    Pending.recovered.push token
  else
    .recovered

end SectionKind

/-! ## The parser -/

/-- Where the parser is; `items` says whether there is one already. -/
inductive Position where
  | file (items : Bool)
  | opened (kind : SectionKind)
  | items (kind : SectionKind) (items : Bool) (pending : Pending)
  | aborted
  deriving DecidableEq, Repr

/-- The state of the parser, with the records made so far. -/
structure Parser where
  use : Statics
  errorCount : Nat
  calls : List Call
  position : Position

namespace Parser

/-- An item is reduced as soon as it is complete. -/
def reduce
    (parser : Parser)
    (kind : SectionKind)
    (items : Bool)
    (pending : Pending) : Parser :=
  if pending.symbols ∈ kind.items then
    { parser with
      use := kind.action pending.tokens parser.use
      errorCount := parser.errorCount + if pending.error then 1 else 0
      position := .items kind true .nothing }
  else
    { parser with position := .items kind items pending }

/-- What a token does. -/
def step (parser : Parser) (token : Token) : Parser :=
  match parser.position with
  | .file _ =>
      match token with
      | .keyword .bus =>
          { parser with
            use := SectionKind.bus.start parser.use
            position := .opened .bus }
      | .keyword .process =>
          { parser with
            use := SectionKind.process.start parser.use
            position := .opened .process }
      | _ => { parser with position := .aborted }
  | .opened kind =>
      if token = .char '\x7b' then
        { parser with position := .items kind false .nothing }
      else
        { parser with position := .aborted }
  | .items kind items pending =>
      if items = true ∧ pending = .nothing ∧ token = .char '\x7d' then
        { parser with
          calls := parser.calls ++ [kind.wrapUp parser.use]
          position := .file true }
      else
        parser.reduce kind items (kind.shift pending token)
  | .aborted => parser

variable {parser : Parser}
variable {kind : SectionKind}
variable {items : Bool}

theorem step_file
    (atFile : parser.position = .file items) :
    parser.step (.keyword kind.keyword) =
      { parser with
        use := kind.start parser.use
        position := .opened kind } := by
  obtain ⟨use, errorCount, calls, position⟩ := parser
  subst atFile
  cases kind <;> rfl

theorem step_opened
    (opened : parser.position = .opened kind) :
    parser.step (.char '\x7b') =
      { parser with position := .items kind false .nothing } := by
  obtain ⟨use, errorCount, calls, position⟩ := parser
  subst opened
  rfl

theorem step_items
    {pending : Pending}
    {token : Token}
    (atItems : parser.position = .items kind items pending)
    (goesOn : ¬ (items = true ∧ pending = .nothing ∧ token = .char '\x7d')) :
    parser.step token = parser.reduce kind items (kind.shift pending token) := by
  obtain ⟨use, errorCount, calls, position⟩ := parser
  subst atItems
  cases token <;> exact if_neg goesOn

theorem step_close
    (atItems : parser.position = .items kind true .nothing) :
    parser.step (.char '\x7d') =
      { parser with
        calls := parser.calls ++ [kind.wrapUp parser.use]
        position := .file true } := by
  obtain ⟨use, errorCount, calls, position⟩ := parser
  subst atItems
  rfl

end Parser

/-- Tokens that are not positive end the file: zero and the bytes above 127. -/
def Token.isEnd : Token → Bool
  | .char mark => mark.toNat = 0 || 128 ≤ mark.toNat
  | _ => false

/-- `yyparse`. -/
def yyparse (use : Statics) (tokens : List Token) : Parser :=
  (tokens.takeWhile (!·.isEnd)).foldl Parser.step
    { use := use, errorCount := 0, calls := [], position := .file false }

/-- `config_file`: what it returns, and the records that it has made. -/
def configFile (use : Statics) (text : Text) : Int × List Call :=
  let parser := yyparse use (configlex text)
  (if parser.position = .file true ∧ parser.errorCount = 0 then 0 else -1,
    parser.calls)

end Simbus.Config
