import Simbus.Config.Layout
import Simbus.Config.Tables

/-!
# Configurations are read as they are written

The parser shifts the items of a section one after the other, and the records of
a file are those of its sections, which are entered into the tables of the server.
Where the pattern of the strings runs over the
end of a string, the text is not read as it was written.
-/

namespace Simbus.Config

/-! ## Items of the grammar -/

section

variable {kind : SectionKind}
variable {tokens : List Token}
variable {parser : Parser}

theorem items_prefix_free :
    ∀ kind : SectionKind, ∀ item ∈ kind.items, ∀ other ∈ kind.items,
      item <+: other → item = other := by
  intro kind
  cases kind <;> decide

theorem items_no_brace :
    ∀ kind : SectionKind, ∀ item ∈ kind.items, Symbol.char '\x7d' ∉ item := by
  intro kind
  cases kind <;> decide

theorem symbols_push
    (pending : Pending)
    (token : Token) :
    (pending.push token).symbols = pending.symbols ++ [token.symbol] := by
  rw [Pending.symbols, Pending.symbols, Pending.push, List.map_append,
    ← List.append_assoc]
  rfl

/-- The beginning of an item is shifted. -/
theorem shift_of_prefix
    {pending : Pending}
    {token : Token}
    {rest item : List Symbol}
    (isItem : item ∈ kind.items)
    (shape : pending.symbols ++ token.symbol :: rest = item) :
    kind.shift pending token = pending.push token := by
  have viable : kind.viable (pending.push token) = true := by
    rw [SectionKind.viable, List.any_eq_true]
    refine ⟨item, isItem, List.isPrefixOf_iff_prefix.mpr ⟨rest, ?_⟩⟩
    rw [symbols_push, List.append_assoc]
    exact shape
  rw [SectionKind.shift, if_pos viable]

/-- The rest of an item completes it, and its action is taken. -/
theorem run_rest
    {items : Bool}
    {before : List Token}
    (rest : List Token)
    (some_ : rest ≠ [])
    (isItem : (before ++ rest).map Token.symbol ∈ kind.items)
    (inItem : parser.position =
      .items kind items { error := false, tokens := before }) :
    rest.foldl Parser.step parser =
      { parser with
        use := kind.action (before ++ rest) parser.use
        position := .items kind true .nothing } := by
  induction rest generalizing before parser with
  | nil =>
      exact absurd rfl some_
  | cons token rest inductionHypothesis =>
      have shape : (Pending.mk false before).symbols ++
          token.symbol :: rest.map Token.symbol =
            (before ++ token :: rest).map Token.symbol := by
        rw [List.map_append, List.map_cons]
        rfl
      have notBrace : ¬ (items = true ∧ Pending.mk false before = .nothing ∧
          token = .char '\x7d') := by
        rintro ⟨_, _, rfl⟩
        refine items_no_brace kind _ isItem ?_
        rw [← shape]
        exact List.mem_append_right _ List.mem_cons_self
      have shifted : parser.step token =
          parser.reduce kind items { error := false, tokens := before ++ [token] } := by
        rw [Parser.step_items inItem notBrace, shift_of_prefix isItem shape]
        rfl
      have whole : before ++ token :: rest = before ++ [token] ++ rest := by
        simp
      rw [List.foldl_cons, shifted]
      by_cases last : rest = []
      · subst last
        have complete : (Pending.mk false (before ++ [token])).symbols ∈
            kind.items := isItem
        rw [Parser.reduce, if_pos complete]
        rfl
      · have incomplete : (Pending.mk false (before ++ [token])).symbols ∉
            kind.items := by
          intro complete
          have same := items_prefix_free kind _ complete _ isItem
            ⟨rest.map Token.symbol, by rw [whole, List.map_append]; rfl⟩
          rw [whole, List.map_append] at same
          have none_ : rest.map Token.symbol = [] :=
            List.append_right_eq_self.mp same.symm
          exact last (List.map_eq_nil_iff.mp none_)
        rw [whole] at isItem ⊢
        rw [Parser.reduce, if_neg incomplete]
        exact inductionHypothesis last isItem rfl

/-- The tokens of an item are shifted and reduced. -/
theorem run_item
    {items : Bool}
    (isItem : tokens.map Token.symbol ∈ kind.items)
    (atItems : parser.position = .items kind items .nothing) :
    tokens.foldl Parser.step parser =
      { parser with
        use := kind.action tokens parser.use
        position := .items kind true .nothing } := by
  have some_ : tokens ≠ [] := by
    rintro rfl
    revert isItem
    cases kind <;> decide
  have atStart : parser.position =
      .items kind items { error := false, tokens := [] } := atItems
  exact run_rest tokens some_ isItem atStart

/-- The items of a section are reduced in their order. -/
theorem run_items
    {items : Bool}
    {written : List (List Token)}
    (areItems : ∀ item ∈ written, item.map Token.symbol ∈ kind.items)
    (atItems : parser.position = .items kind items .nothing) :
    written.flatten.foldl Parser.step parser =
      { parser with
        use := written.foldl (fun use item => kind.action item use) parser.use
        position := .items kind (items || !written.isEmpty) .nothing } := by
  induction written generalizing parser items with
  | nil =>
      rw [List.flatten_nil, List.foldl_nil, List.foldl_nil, List.isEmpty_nil,
        Bool.not_true, Bool.or_false, ← atItems]
  | cons item written inductionHypothesis =>
      have others : ∀ item ∈ written, item.map Token.symbol ∈ kind.items :=
        fun other isIn => areItems other (List.mem_cons_of_mem _ isIn)
      rw [List.flatten_cons, List.foldl_append,
        run_item (areItems item List.mem_cons_self) atItems,
        @inductionHypothesis _ true others rfl]
      simp

/-- A section with items makes one record. -/
theorem run_section
    {items : Bool}
    {written : List (List Token)}
    (some_ : written ≠ [])
    (areItems : ∀ item ∈ written, item.map Token.symbol ∈ kind.items)
    (atFile : parser.position = .file items) :
    (sectionTokens kind written).foldl Parser.step parser =
      { parser with
        use := written.foldl (fun use item => kind.action item use)
          (kind.start parser.use)
        calls := parser.calls ++ [kind.wrapUp
          (written.foldl (fun use item => kind.action item use)
            (kind.start parser.use))]
        position := .file true } := by
  have notEmpty : (false || !written.isEmpty) = true := by
    cases written with
    | nil => exact absurd rfl some_
    | cons _ _ => rfl
  rw [sectionTokens, List.append_assoc, List.foldl_append, List.foldl_cons,
    List.foldl_cons, List.foldl_nil, Parser.step_file atFile,
    Parser.step_opened rfl, List.foldl_append,
    @run_items _ _ false written areItems rfl, notEmpty, List.foldl_cons,
    List.foldl_nil, Parser.step_close rfl]

end

/-! ## Sections of descriptions -/

theorem BusItem.isItem
    (item : BusItem) :
    item.tokens.map Token.symbol ∈ SectionKind.bus.items := by
  cases item with
  | name text | protocol text =>
      simp [BusItem.tokens, assignment, Token.symbol, SectionKind.items, busItems]
  | address address =>
      cases address <;>
        simp [BusItem.tokens, assignment, Token.symbol, SectionKind.items, busItems]
  | device device =>
      obtain ⟨name, ident, host⟩ := device
      cases host <;>
        simp [BusItem.tokens, Token.symbol, SectionKind.items, busItems]
  | option key value =>
      cases value <;>
        simp [BusItem.tokens, Token.symbol, SectionKind.items, busItems]

theorem ProcessItem.isItem
    (item : ProcessItem) :
    item.tokens.map Token.symbol ∈ SectionKind.process.items := by
  cases item <;>
    simp [ProcessItem.tokens, assignment, Token.symbol, SectionKind.items,
      processItems]

theorem assignment_writable
    (keyword : Keyword)
    (text : Quotable) :
    ∀ token ∈ assignment keyword text, token.Writable := by
  simp [assignment, Token.Writable, text.plain, punctuation]

theorem BusItem.writable
    (item : BusItem) :
    ∀ token ∈ item.tokens, token.Writable := by
  cases item with
  | name text | protocol text =>
      exact assignment_writable _ text
  | address address =>
      cases address with
      | port value =>
          simp [BusItem.tokens, Token.Writable, punctuation]
      | pipe path =>
          exact assignment_writable _ path
  | device device =>
      simp [BusItem.tokens, Token.Writable, punctuation, device.name.plain]
  | option key value =>
      have isKey : Token.Writable (.identifier key.text) :=
        ⟨key.isName, key.notKeyword⟩
      cases value with
      | text value =>
          simp [BusItem.tokens, isKey]
          simp [Token.Writable, punctuation, value.plain]
      | number value =>
          simp [BusItem.tokens, isKey]
          simp [Token.Writable, punctuation]

theorem ProcessItem.writable
    (item : ProcessItem) :
    ∀ token ∈ item.tokens, token.Writable := by
  cases item with
  | env key value =>
      simp [ProcessItem.tokens, Token.Writable, punctuation, key.plain, value.plain]
  | _ text =>
      exact assignment_writable _ text

theorem sectionTokens_writable
    {kind : SectionKind}
    {items : List (List Token)}
    (writable : ∀ item ∈ items, ∀ token ∈ item, token.Writable) :
    ∀ token ∈ sectionTokens kind items, token.Writable := by
  intro token isIn
  rw [sectionTokens, List.mem_append, List.mem_append] at isIn
  rcases isIn with (isHead | isItem) | isLast
  · simp only [List.mem_cons, List.not_mem_nil, or_false] at isHead
    rcases isHead with rfl | rfl
    · trivial
    · simp [Token.Writable, punctuation]
  · obtain ⟨item, isIn, isToken⟩ := List.mem_flatten.mp isItem
    exact writable item isIn token isToken
  · rw [List.mem_singleton.mp isLast]
    simp [Token.Writable, punctuation]

section

variable {description : Description}
variable {descriptions : List Description}
variable {tokens : List Token}
variable {sections : List (List Token)}

theorem Description.Described.writable
    (described : description.Described tokens) :
    ∀ token ∈ tokens, token.Writable := by
  cases described with
  | bus bus items _ =>
      apply sectionTokens_writable
      rw [List.forall_mem_map]
      exact fun item _ => item.writable
  | process process items _ =>
      apply sectionTokens_writable
      rw [List.forall_mem_map]
      exact fun item _ => item.writable

theorem described_writable
    (described : List.Forall₂ Description.Described descriptions sections) :
    ∀ token ∈ sections.flatten, token.Writable := by
  induction described with
  | nil =>
      exact fun token isIn => absurd isIn List.not_mem_nil
  | cons first _ inductionHypothesis =>
      intro token isIn
      rw [List.flatten_cons, List.mem_append] at isIn
      rcases isIn with isFirst | isLater
      · exact first.writable token isFirst
      · exact inductionHypothesis token isLater

/-- A section makes its record. -/
theorem Description.Described.run
    (described : description.Described tokens)
    {parser : Parser}
    {items : Bool}
    (atFile : parser.position = .file items) :
    ∃ use, tokens.foldl Parser.step parser =
      { parser with
        use := use
        calls := parser.calls ++ [description.made]
        position := .file true } := by
  cases described with
  | bus bus items arranges =>
      have isIn : BusItem.protocol bus.protocol ∈ items :=
        arranges.mem (by simp [BusDescription.items]) id
      have some_ : items.map BusItem.tokens ≠ [] := by
        rintro none_
        rw [List.map_eq_nil_iff.mp none_] at isIn
        cases isIn
      have areItems : ∀ item ∈ items.map BusItem.tokens,
          item.map Token.symbol ∈ SectionKind.bus.items := by
        rw [List.forall_mem_map]
        exact fun item _ => item.isItem
      have isMade : SectionKind.bus.wrapUp
          ((items.map BusItem.tokens).foldl
            (fun use item => SectionKind.bus.action item use)
            (SectionKind.bus.start parser.use)) = bus.made := by
        rw [List.foldl_map]
        exact bus.wrapUp arranges parser.use
      rw [run_section some_ areItems atFile, isMade]
      exact ⟨_, rfl⟩
  | process process items arranges =>
      have isIn : ProcessItem.exec process.exec ∈ items :=
        arranges.mem (by simp [ProcessDescription.items]) id
      have some_ : items.map ProcessItem.tokens ≠ [] := by
        rintro none_
        rw [List.map_eq_nil_iff.mp none_] at isIn
        cases isIn
      have areItems : ∀ item ∈ items.map ProcessItem.tokens,
          item.map Token.symbol ∈ SectionKind.process.items := by
        rw [List.forall_mem_map]
        exact fun item _ => item.isItem
      have isMade : SectionKind.process.wrapUp
          ((items.map ProcessItem.tokens).foldl
            (fun use item => SectionKind.process.action item use)
            (SectionKind.process.start parser.use)) = process.record := by
        rw [List.foldl_map]
        exact process.wrapUp arranges parser.use
      rw [run_section some_ areItems atFile, isMade]
      exact ⟨_, rfl⟩

/-- The sections of a file make their records in order. -/
theorem run_sections
    (described : List.Forall₂ Description.Described descriptions sections)
    {parser : Parser}
    {items : Bool}
    (atFile : parser.position = .file items) :
    ∃ use, sections.flatten.foldl Parser.step parser =
      { parser with
        use := use
        calls := parser.calls ++ descriptions.map Description.made
        position := .file (items || !descriptions.isEmpty) } := by
  induction described generalizing parser items with
  | nil =>
      refine ⟨parser.use, ?_⟩
      rw [List.flatten_nil, List.foldl_nil, List.map_nil, List.append_nil,
        List.isEmpty_nil, Bool.not_true, Bool.or_false, ← atFile]
  | cons first _ inductionHypothesis =>
      obtain ⟨use, ran⟩ := first.run atFile
      rw [List.flatten_cons, List.foldl_append, ran]
      obtain ⟨use', ranOn⟩ := @inductionHypothesis
        { parser with
          use := use
          calls := parser.calls ++ [Description.made _]
          position := .file true } true rfl
      refine ⟨use', ranOn.trans ?_⟩
      simp

end

/-! ## Files -/

section

variable {descriptions : List Description}

/-- A text of descriptions: their sections, and a layout of the tokens. -/
structure Rendering (descriptions : List Description) where
  sections : List (List Token)
  described : List.Forall₂ Description.Described descriptions sections
  layout : Layout sections.flatten

namespace Rendering

/-- The tokens as they are written. -/
def tokens (rendering : Rendering descriptions) : List Token :=
  rendering.sections.flatten

/-- The text of the file. -/
def text (rendering : Rendering descriptions) : Text :=
  rendering.layout.contents

theorem writable
    (rendering : Rendering descriptions) :
    ∀ token ∈ rendering.tokens, token.Writable :=
  described_writable rendering.described

/--
What the lexer and the grammar make of a text is what was written, and the server
has exactly the records of it, beside those that it had before.
-/
structure Read
    (rendering : Rendering descriptions)
    (use : Statics)
    (before : Tables) : Prop where
  tokens : configlex rendering.text = rendering.tokens
  records : configFile use rendering.text =
    (0, descriptions.map Description.record)
  tables : ∃ after, before.addAll (configFile use rendering.text).2 = some after ∧
    before.Added after (descriptions.map Description.record)

/--
Something is described, the pipes have paths, every port and every name of a
process is new and the clocks are possible, the strings are C strings, and no
quote follows a string on its line.
-/
structure Regular (rendering : Rendering descriptions) (before : Tables) : Prop where
  some_ : descriptions ≠ []
  named : ∀ description ∈ descriptions, description.Named
  addable : before.Addable (descriptions.map Description.record)
  noNul : ∀ token ∈ rendering.tokens, token.NoNul
  stringsLast : StringsLast rendering.layout.pieces

variable {rendering : Rendering descriptions}
variable {use : Statics}

theorem isEnd_of_writable
    {token : Token}
    (writable : token.Writable) :
    token.isEnd = false := by
  cases token with
  | char char =>
      rcases punctuation_cases writable with rfl | rfl | rfl | rfl <;> decide
  | _ =>
      rfl

/-- What the parser makes of the tokens as they are written. -/
theorem configFile_eq
    (tokens : configlex rendering.text = rendering.tokens) :
    configFile use rendering.text =
      (if descriptions = [] then -1 else 0,
        descriptions.map Description.made) := by
  have allTokens : rendering.tokens.takeWhile (!·.isEnd) = rendering.tokens := by
    rw [List.takeWhile_eq_self_iff]
    intro token isIn
    rw [isEnd_of_writable (rendering.writable token isIn)]
    rfl
  obtain ⟨use', ran⟩ := @run_sections _ _ rendering.described
    { use := use, errorCount := 0, calls := [], position := .file false } false rfl
  have parsed : yyparse use rendering.tokens = _ :=
    (congrArg (List.foldl Parser.step _) allTokens).trans ran
  rw [configFile, tokens, parsed]
  cases descriptions <;> rfl

/--
A text is read as it was written exactly if it describes something, its pipes have
paths, no port and no name of a process comes twice, the clocks are possible, its
strings are C strings, and no quote follows a string on its line.
-/
theorem read_iff
    (rendering : Rendering descriptions)
    (use : Statics)
    (before : Tables) :
    rendering.Read use before ↔ rendering.Regular before := by
  have lexed := rendering.layout.tokens_read_iff rendering.writable
  have same : descriptions.map Description.made =
      descriptions.map Description.record ↔
        ∀ description ∈ descriptions, description.Named := by
    rw [List.map_inj_left]
    exact forall₂_congr fun description _ => description.made_eq_record_iff
  constructor
  · intro read
    have parsed := read.records
    have tables := read.tables
    rw [parsed] at tables
    rw [configFile_eq read.tokens, Prod.mk.injEq, same] at parsed
    obtain ⟨stringsLast, noNul⟩ := lexed.mp read.tokens
    refine ⟨?_, parsed.2, Tables.addAll_added_iff.mp tables, noNul, stringsLast⟩
    intro none_
    rw [if_pos none_] at parsed
    exact absurd parsed.1 (by decide)
  · intro regular
    have tokens : configlex rendering.text = rendering.tokens :=
      lexed.mpr ⟨regular.stringsLast, regular.noNul⟩
    have records : configFile use rendering.text =
        (0, descriptions.map Description.record) := by
      rw [configFile_eq tokens, if_neg regular.some_, same.mpr regular.named]
    refine ⟨tokens, records, ?_⟩
    rw [records]
    exact Tables.addAll_added_iff.mpr regular.addable

end Rendering

end

/-! ## A setting on one line -/

/-- A process with a setting. -/
def settingProcess : ProcessDescription where
  name := ⟨[], by decide⟩
  exec := ⟨"run".toList, by decide⟩
  stdin := ⟨"/dev/null".toList, by decide⟩
  stdout := ⟨"/dev/null".toList, by decide⟩
  stderr := ⟨[], by decide⟩
  env := [(⟨"A".toList, by decide⟩, ⟨"B".toList, by decide⟩)]
  envDistinct := by decide

/-- The pieces of `process { exec = "run"; env "A" = "B"; }` on lines of items. -/
def settingPieces : Pieces :=
  [(.keyword .process, " ".toList), (.char '\x7b', "\n".toList),
    (.keyword .exec, " ".toList), (.char '=', " ".toList),
    (.string "run".toList, []), (.char ';', "\n".toList),
    (.keyword .env, " ".toList), (.string "A".toList, " ".toList),
    (.char '=', " ".toList), (.string "B".toList, []), (.char ';', "\n".toList),
    (.char '\x7d', "\n".toList)]

/-- The process with a setting as it is documented. -/
def settingRendering : Rendering [.process settingProcess] where
  sections :=
    [sectionTokens .process
      ([ProcessItem.exec settingProcess.exec,
        .env ⟨"A".toList, by decide⟩ ⟨"B".toList, by decide⟩].map
        ProcessItem.tokens)]
  described := by
    refine .cons (.process _ _ ⟨[.name settingProcess.name,
      .stdin settingProcess.stdin, .stdout settingProcess.stdout,
      .stderr settingProcess.stderr], ?_, ?_⟩) .nil
    · exact .cons _ List.perm_middle
    · simp [ProcessItem.Default, settingProcess]
  layout :=
    { leading := []
      pieces := settingPieces
      tokens_eq := rfl
      isLeading := .none
      spaced := .of_spaces (by decide) }

/-- The documented syntax of a setting on one line is not accepted. -/
theorem settingRendering_not_read :
    ¬ ∀ (use : Statics) (descriptions : List Description)
      (rendering : Rendering descriptions),
      configFile use rendering.text =
        (0, descriptions.map Description.record) := by
  intro accepted
  have result := congrArg Prod.fst (accepted
    { name := [], busPort := 0, busPipe := [], busProtocol := []
      busDevices := noEntries, busOptions := noEntries, procExec := []
      procStdin := [], procStdout := [], procStderr := [], procEnv := noEntries }
    _ settingRendering)
  revert result
  decide

end Simbus.Config
