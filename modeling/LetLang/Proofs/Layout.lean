import LetLang.Proofs.Acceptance
import LetLang.Proofs.Rendering

/-!
# The accepted language

Which sources are compiled, said in bytes: a statement is laid out as its words, numbers and
marks with gaps between them, and what follows it must not open a block comment that never
closes before any token. What is emitted depends on the names, numbers and operators only.
-/

namespace LetLang

/-- Whether a token can be an operand. -/
def Spelling.IsOperand (spelling : Spelling) : Prop :=
  spelling.kind = .number ∨ spelling.kind = .identifier

/-- An operator and its right operand as they are laid out, each with the gap before it. -/
structure Link where
  beforeOperator : List Byte
  operator : Operator
  beforeOperand : List Byte
  operand : Spelling

/-- A statement as it is laid out in a text, each part with the gap before it. -/
structure Layout where
  beforeLet : List Byte
  beforeTarget : List Byte
  target : List Byte
  beforeEquals : List Byte
  beforeFirst : List Byte
  first : Spelling
  links : List Link
  beforeEnd : List Byte

namespace Link

def sign (link : Link) : Mark := Statement.markOf link.operator

def bytes (link : Link) : List Byte :=
  link.beforeOperator ++ [link.sign.byte] ++ link.beforeOperand ++ link.operand.bytes

structure Valid (link : Link) : Prop where
  beforeOperator : Gap.IsGap link.beforeOperator
  beforeOperand : Gap.IsGap link.beforeOperand
  operand : link.operand.Valid ∧ link.operand.IsOperand

/-- The lines of a link: the operand is pushed, and then the operator is applied. -/
def lines (link : Link) : List String :=
  ["push " ++ latinText link.operand.bytes,
    match link.operator with
    | .add => "add"
    | .sub => "sub"]

def onto (link : Link) (rest : Rendering) : Rendering :=
  .token link.beforeOperator (.mark link.sign) (.token link.beforeOperand link.operand rest)

end Link

namespace Layout

/-- The bytes of a statement up to its semicolon. -/
def bytes (layout : Layout) : List Byte :=
  layout.beforeLet ++ Keyword.let.bytes ++ layout.beforeTarget ++ layout.target ++
    layout.beforeEquals ++ [Mark.equals.byte] ++ layout.beforeFirst ++ layout.first.bytes ++
    layout.links.flatMap Link.bytes ++ layout.beforeEnd ++ [Mark.semicolon.byte]

/-- Whether a layout is one of a statement: gaps are gaps, the one after the keyword is not
empty, the target is a word and no keyword, and the operands are operands. -/
structure Valid (layout : Layout) : Prop where
  beforeLet : Gap.IsGap layout.beforeLet
  beforeTarget : Gap.IsGap layout.beforeTarget
  apart : layout.beforeTarget ≠ []
  target : (Spelling.identifier layout.target).Valid
  beforeEquals : Gap.IsGap layout.beforeEquals
  beforeFirst : Gap.IsGap layout.beforeFirst
  first : layout.first.Valid ∧ layout.first.IsOperand
  links : ∀ link ∈ layout.links, link.Valid
  beforeEnd : Gap.IsGap layout.beforeEnd

def statement (layout : Layout) : Statement :=
  ⟨latinText layout.target, latinText layout.first.bytes,
    layout.links.map fun link => (link.operator, latinText link.operand.bytes)⟩

def lines (layout : Layout) : List String :=
  ("push " ++ latinText layout.first.bytes) :: layout.links.flatMap Link.lines ++
    ["pop " ++ latinText layout.target]

/-- The gaps and tokens of a statement from its first operator on. -/
def linksRendering (links : List Link) (beforeEnd rest : List Byte) : Rendering :=
  links.foldr Link.onto (.token beforeEnd (.mark .semicolon) (.done rest))

/-- The gaps and tokens of a statement, and what follows it. -/
def rendering (layout : Layout) (rest : List Byte) : Rendering :=
  .token layout.beforeLet (.keyword .let) <|
  .token layout.beforeTarget (.identifier layout.target) <|
  .token layout.beforeEquals (.mark .equals) <|
  .token layout.beforeFirst layout.first <|
  linksRendering layout.links layout.beforeEnd rest

/-! ## The rendering of a layout -/

theorem bytes_linksRendering (links : List Link) (beforeEnd rest : List Byte) :
    (linksRendering links beforeEnd rest).bytes =
      links.flatMap Link.bytes ++ beforeEnd ++ [Mark.semicolon.byte] ++ rest := by
  induction links with
  | nil => simp [linksRendering, Rendering.bytes, Spelling.bytes]
  | cons link links ih =>
      rw [linksRendering] at ih
      simp [linksRendering, Link.onto, Rendering.bytes, Spelling.bytes, Link.bytes, ih]

theorem bytes_rendering (layout : Layout) (rest : List Byte) :
    (layout.rendering rest).bytes = layout.bytes ++ rest := by
  simp [rendering, Rendering.bytes, bytes_linksRendering, Spelling.bytes, bytes]

theorem remainder_linksRendering (links : List Link) (beforeEnd rest : List Byte) :
    (linksRendering links beforeEnd rest).remainder = rest := by
  induction links with
  | nil => rfl
  | cons link links ih => exact ih

theorem remainder_rendering (layout : Layout) (rest : List Byte) :
    (layout.rendering rest).remainder = rest := by
  simp only [rendering, Rendering.remainder, remainder_linksRendering]

theorem endsBefore_of_isOperand {operand : Spelling} (hoperand : operand.IsOperand)
    {gap : List Byte} (hgap : Gap.IsGap gap) (sign : Mark) (rest : List Byte) :
    operand.EndsBefore (gap ++ sign.byte :: rest) := by
  have hword : ∀ byte ∈ (gap ++ sign.byte :: rest).head?, byte.continuesWord = false := by
    cases gap with
    | nil =>
        rintro byte ⟨⟩
        exact sign.byte_class.2.1
    | cons first gap =>
        rintro byte ⟨⟩
        exact Gap.not_continuesWord_of_head (Gap.head_of_isGap hgap)
  cases operand with
  | identifier name => exact hword
  | number digits =>
      exact fun _ byte hbyte => Byte.isDigit_of_not_continuesWord (hword byte hbyte)
  | _ => simp [Spelling.IsOperand, Spelling.kind] at hoperand

theorem exists_mark_linksRendering {links : List Link} {beforeEnd : List Byte}
    (hlinks : ∀ link ∈ links, link.Valid) (hend : Gap.IsGap beforeEnd) (rest : List Byte) :
    ∃ (gap : List Byte) (sign : Mark) (after : List Byte), Gap.IsGap gap ∧
      (linksRendering links beforeEnd rest).bytes = gap ++ sign.byte :: after := by
  cases links with
  | nil => exact ⟨beforeEnd, .semicolon, rest, hend, rfl⟩
  | cons link links =>
      have hlink := hlinks link List.mem_cons_self
      exact ⟨link.beforeOperator, link.sign, _, hlink.beforeOperator, rfl⟩

theorem endsBefore_linksRendering {operand : Spelling} (hoperand : operand.IsOperand)
    {links : List Link} {beforeEnd : List Byte} (hlinks : ∀ link ∈ links, link.Valid)
    (hend : Gap.IsGap beforeEnd) (rest : List Byte) :
    operand.EndsBefore (linksRendering links beforeEnd rest).bytes := by
  obtain ⟨gap, sign, after, hgap, hbytes⟩ := exists_mark_linksRendering hlinks hend rest
  rw [hbytes]
  exact endsBefore_of_isOperand hoperand hgap sign after

theorem separate_linksRendering {links : List Link} {beforeEnd : List Byte}
    (hlinks : ∀ link ∈ links, link.Valid) (hend : Gap.IsGap beforeEnd) (rest : List Byte) :
    (linksRendering links beforeEnd rest).Separate := by
  induction links with
  | nil => exact ⟨hend, trivial, by simp [Spelling.EndsBefore], trivial⟩
  | cons link links ih =>
      obtain ⟨hlink, hlinks⟩ := List.forall_mem_cons.mp hlinks
      refine ⟨hlink.beforeOperator, trivial, ?_, hlink.beforeOperand, hlink.operand.1,
        endsBefore_linksRendering hlink.operand.2 hlinks hend rest, ih hlinks⟩
      intro hslash
      cases hoperator : link.operator <;> simp [Link.sign, hoperator, Statement.markOf] at hslash

/-- In a valid layout every token ends where the bytes after it begin. -/
theorem Valid.separate {layout : Layout} (hvalid : layout.Valid) (rest : List Byte) :
    (layout.rendering rest).Separate := by
  refine ⟨hvalid.beforeLet, trivial, ?_, hvalid.beforeTarget, hvalid.target, ?_,
    hvalid.beforeEquals, trivial, by simp [Spelling.EndsBefore], hvalid.beforeFirst,
    hvalid.first.1, endsBefore_linksRendering hvalid.first.2 hvalid.links hvalid.beforeEnd rest,
    separate_linksRendering hvalid.links hvalid.beforeEnd rest⟩
  · have hgap := hvalid.beforeTarget
    cases hbytes : layout.beforeTarget with
    | nil => exact absurd hbytes hvalid.apart
    | cons first gap =>
        rw [hbytes] at hgap
        simp only [Rendering.bytes]
        rintro byte ⟨⟩
        exact Gap.not_continuesWord_of_head (Gap.head_of_isGap hgap)
  · exact endsBefore_of_isOperand (Or.inr rfl) hvalid.beforeEquals .equals _

/-! ## Layouts and the tokens of statements -/

theorem key_of_isOperand {operand : Spelling} (hvalid : operand.Valid)
    (hoperand : operand.IsOperand) (codec : Encoding) :
    (operand.kind, operand.text codec) =
      (Statement.kindOf (latinText operand.bytes), latinText operand.bytes) := by
  cases operand with
  | identifier name =>
      simp [Spelling.kind, Spelling.text, Spelling.bytes, Statement.kindOf, hvalid.1.isNumeral]
  | number digits =>
      simp [Spelling.kind, Spelling.text, Spelling.bytes, Statement.kindOf,
        IsNumber.isNumeral hvalid]
  | _ => simp [Spelling.IsOperand, Spelling.kind] at hoperand

theorem keys_linksRendering {links : List Link} (hlinks : ∀ link ∈ links, link.Valid)
    (beforeEnd rest : List Byte) (codec : Encoding) :
    (linksRendering links beforeEnd rest).keys codec =
      (links.map fun link => (link.operator, latinText link.operand.bytes)).flatMap
        Statement.linkTokens ++ [Statement.semicolonKey] := by
  induction links with
  | nil => rfl
  | cons link links ih =>
      obtain ⟨hlink, hlinks⟩ := List.forall_mem_cons.mp hlinks
      have hoperand := key_of_isOperand hlink.operand.1 hlink.operand.2 codec
      have hsign : (Spelling.mark link.sign).text codec = latinText [link.sign.byte] := rfl
      have ih := ih hlinks
      simp only [linksRendering, Rendering.keys] at ih
      simp only [linksRendering, List.foldr_cons, Link.onto, Rendering.keys, Rendering.spellings,
        List.map_cons, hoperand, hsign, ih]
      rfl

/-- The tokens of a valid layout are those of the statement laid out. -/
theorem Valid.keys {layout : Layout} (hvalid : layout.Valid) (rest : List Byte)
    (codec : Encoding) : (layout.rendering rest).keys codec = layout.statement.tokens := by
  have hfirst := key_of_isOperand hvalid.first.1 hvalid.first.2 codec
  have hlinks := keys_linksRendering hvalid.links layout.beforeEnd rest codec
  rw [Rendering.keys] at hlinks
  rw [Statement.tokens_eq]
  simp only [rendering, Rendering.keys, Rendering.spellings, List.map_cons, hfirst, hlinks]
  rfl

theorem exists_token_of_keys {rendering : Rendering} {codec : Encoding} {key : Kind × String}
    {keys : List (Kind × String)} (hseparate : rendering.Separate)
    (hkeys : rendering.keys codec = key :: keys) :
    ∃ gap spelling rest, rendering = .token gap spelling rest ∧ Gap.IsGap gap ∧
      spelling.Valid ∧ spelling.EndsBefore rest.bytes ∧ rest.Separate ∧
      (spelling.kind, spelling.text codec) = key ∧ rest.keys codec = keys := by
  cases rendering with
  | done gap => cases hkeys
  | token gap spelling rest =>
      obtain ⟨hgap, hvalid, hends, hrest⟩ := hseparate
      obtain ⟨hkey, hkeys⟩ := List.cons.inj hkeys
      exact ⟨gap, spelling, rest, rfl, hgap, hvalid, hends, hrest, hkey, hkeys⟩

theorem eq_mark_of_kind {spelling : Spelling} {sign : Mark} (hkind : spelling.kind = .mark sign) :
    spelling = .mark sign := by
  cases spelling <;> simp_all [Spelling.kind]

theorem eq_keyword_of_kind {spelling : Spelling} {reserved : Keyword}
    (hkind : spelling.kind = .keyword reserved) : spelling = .keyword reserved := by
  cases spelling <;> simp_all [Spelling.kind]

theorem exists_name_of_kind {spelling : Spelling} (hkind : spelling.kind = .identifier) :
    ∃ name, spelling = .identifier name := by
  cases spelling <;> simp_all [Spelling.kind]

theorem isOperand_of_key {spelling : Spelling} {codec : Encoding} {operand : String}
    (hkey : (spelling.kind, spelling.text codec) = (Statement.kindOf operand, operand)) :
    spelling.IsOperand ∧ latinText spelling.bytes = operand := by
  obtain ⟨hkind, rfl⟩ := Prod.mk.inj hkey
  have hoperand : spelling.IsOperand := by
    rw [Spelling.IsOperand, hkind]
    exact Statement.kindOf_eq _
  refine ⟨hoperand, ?_⟩
  cases spelling with
  | string body closed => simp [Spelling.IsOperand, Spelling.kind] at hoperand
  | _ => rfl

/-- A rendering of links and a semicolon is that of links laid out. -/
theorem exists_links_of_keys {rendering : Rendering} {codec : Encoding}
    {links : List (Operator × String)} (hseparate : rendering.Separate)
    (hkeys : rendering.keys codec =
      links.flatMap Statement.linkTokens ++ [Statement.semicolonKey]) :
    ∃ laid beforeEnd rest, rendering = linksRendering laid beforeEnd rest ∧
      (∀ link ∈ laid, link.Valid) ∧ Gap.IsGap beforeEnd ∧
      laid.map (fun link => (link.operator, latinText link.operand.bytes)) = links := by
  induction links generalizing rendering with
  | nil =>
      obtain ⟨gap, spelling, rest, rfl, hgap, _, _, _, hkey, hkeys⟩ :=
        exists_token_of_keys hseparate hkeys
      obtain rfl := eq_mark_of_kind (Prod.mk.inj hkey).1
      cases rest with
      | done rest => exact ⟨[], gap, rest, rfl, by simp, hgap, rfl⟩
      | token => cases hkeys
  | cons link links ih =>
      obtain ⟨beforeOperator, spelling, later, rfl, hoperator, _, _, hlater, hsign, hkeysLater⟩ :=
        exists_token_of_keys hseparate hkeys
      obtain rfl := eq_mark_of_kind (Prod.mk.inj hsign).1
      obtain ⟨beforeOperand, operand, last, rfl, hgap, hvalid, _, hlast, hkey, hkeysLast⟩ :=
        exists_token_of_keys hlater hkeysLater
      obtain ⟨hoperand, htext⟩ := isOperand_of_key hkey
      obtain ⟨laid, beforeEnd, after, rfl, hlaid, hend, rfl⟩ := ih hlast hkeysLast
      refine ⟨⟨beforeOperator, link.1, beforeOperand, operand⟩ :: laid, beforeEnd, after, rfl,
        List.forall_mem_cons.mpr ⟨⟨hoperator, hgap, hvalid, hoperand⟩, hlaid⟩, hend, ?_⟩
      rw [List.map_cons, htext]

/-- A rendering of the tokens of a statement is a valid layout of it. -/
theorem exists_layout_of_keys {rendering : Rendering} {codec : Encoding} {statement : Statement}
    (hseparate : rendering.Separate) (hkeys : rendering.keys codec = statement.tokens) :
    ∃ (layout : Layout) (rest : List Byte), layout.Valid ∧ rendering = layout.rendering rest ∧
      layout.statement = statement := by
  rw [Statement.tokens_eq] at hkeys
  obtain ⟨beforeLet, word, afterLet, rfl, hlet, _, hends, hseparateLet, hkeyLet, hkeysLet⟩ :=
    exists_token_of_keys hseparate hkeys
  obtain rfl := eq_keyword_of_kind (Prod.mk.inj hkeyLet).1
  obtain ⟨beforeTarget, name, afterTarget, rfl, htarget, hvalid, _, hseparateTarget, hkeyTarget,
    hkeysTarget⟩ := exists_token_of_keys hseparateLet hkeysLet
  obtain ⟨hkind, htext⟩ := Prod.mk.inj hkeyTarget
  obtain ⟨target, rfl⟩ := exists_name_of_kind hkind
  obtain ⟨beforeEquals, sign, afterEquals, rfl, hequals, _, _, hseparateEquals, hkeyEquals,
    hkeysEquals⟩ := exists_token_of_keys hseparateTarget hkeysTarget
  obtain rfl := eq_mark_of_kind (Prod.mk.inj hkeyEquals).1
  obtain ⟨beforeFirst, first, afterFirst, rfl, hgap, hfirst, _, hseparateFirst, hkeyFirst,
    hkeysFirst⟩ := exists_token_of_keys hseparateEquals hkeysEquals
  obtain ⟨hoperand, hfirstText⟩ := isOperand_of_key hkeyFirst
  obtain ⟨links, beforeEnd, rest, rfl, hlinks, hend, hlaid⟩ :=
    exists_links_of_keys hseparateFirst hkeysFirst
  have hapart : beforeTarget ≠ [] := by
    rintro rfl
    -- the name would go on with the keyword
    obtain ⟨start, hhead, hstart⟩ := hvalid.1.exists_first
    have hword := hends start (by simp [Rendering.bytes, Spelling.bytes, hhead])
    simp [Byte.continuesWord_of_startsWord hstart] at hword
  refine ⟨⟨beforeLet, beforeTarget, target, beforeEquals, beforeFirst, first, links, beforeEnd⟩,
    rest, ⟨hlet, htarget, hapart, hvalid, hequals, hgap, ⟨hfirst, hoperand⟩, hlinks, hend⟩, rfl,
    ?_⟩
  rw [Layout.statement, hlaid, hfirstText]
  exact congrArg (Statement.mk · statement.first statement.rest) htext

theorem lines_statement (layout : Layout) :
    layout.statement.instructions.map Instruction.line = layout.lines := by
  have hlink (link : Link) :
      (Statement.linkInstructions (link.operator, latinText link.operand.bytes)).map
        Instruction.line = link.lines := by
    cases hoperator : link.operator <;>
      simp [Statement.linkInstructions, Link.lines, Instruction.line, Operator.word, hoperator]
  simp [Statement.instructions, statement, lines, List.map_flatMap, List.flatMap_map, hlink,
    Instruction.line]

/-! ## The language -/

/-- A source that starts with a statement laid out is compiled to it, unless what follows the
semicolon fails the draw of one more token. -/
theorem exists_outcome_of_valid {codec : Encoding} {options : Options} {source : Source}
    {layout : Layout} {rest : List Byte} (hcodec : Encoding.find options.encoding.name = .ok codec)
    (hvalid : layout.Valid) (htext : source.text = layout.bytes ++ rest)
    (hclosed : ¬ Gap.EndsUnclosed rest) :
    ∃ tokens, (compile options source).outcome =
      .ok (layout.statement.result source options tokens) := by
  let scanner := Scanner.ofSource source options.encoding
  let rendering := layout.rendering rest
  have hrest : scanner.rest = rendering.bytes := by
    rw [bytes_rendering, ← htext]
    rfl
  have hdraws := scanner.draws_of_separate hcodec (hvalid.separate rest) hrest
  rw [layout.remainder_rendering rest] at hdraws
  -- one more token is drawn after the semicolon
  obtain ⟨after, last, hlast⟩ :=
    ((scanner.move rendering.taken rest).exists_next_iff hcodec).mpr hclosed
  refine ⟨_, outcome_compile_eq_ok_iff.mpr ⟨layout.statement, _, last, after,
    Scanner.Draws.concat_iff.mpr ⟨_, hdraws, hlast⟩, ?_, rfl⟩⟩
  rw [List.map_map, ← hvalid.keys rest codec]
  exact Rendering.map_key_placed rendering source codec _

/-- A source that is compiled starts with a statement laid out, and one more token can be drawn
after it. -/
theorem exists_layout_of_outcome {codec : Encoding} {options : Options} {source : Source}
    {result : Result} (hcodec : Encoding.find options.encoding.name = .ok codec)
    (houtcome : (compile options source).outcome = .ok result) :
    ∃ (layout : Layout) (rest : List Byte), layout.Valid ∧ source.text = layout.bytes ++ rest ∧
      ¬ Gap.EndsUnclosed rest := by
  obtain ⟨statement, tokens, last, after, hdraws, hkeys, _⟩ :=
    outcome_compile_eq_ok_iff.mp houtcome
  obtain ⟨middle, htokens, hlast⟩ := Scanner.Draws.concat_iff.mp hdraws
  have hkinds := Statement.Stage.kind_ne_finish_of_run (Statement.Stage.run_tokens hkeys)
  obtain ⟨rendering, hseparate, hrest, rfl, hmiddle⟩ := htokens.exists_rendering hcodec hkinds
  have hfound : Encoding.find middle.encoding.name = .ok codec := by
    rw [hmiddle]
    exact hcodec
  have hclosed := (middle.exists_next_iff hfound).mp ⟨after, last, hlast⟩
  rw [hmiddle] at hclosed
  rw [List.map_map] at hkeys
  have hkeys : rendering.keys codec = statement.tokens :=
    (rendering.map_key_placed _ codec _).symm.trans hkeys
  obtain ⟨layout, rest, hvalid, rfl, _⟩ := exists_layout_of_keys hseparate hkeys
  refine ⟨layout, rest, hvalid, hrest.trans (layout.bytes_rendering rest), ?_⟩
  rw [← layout.remainder_rendering rest]
  exact hclosed

end Layout

/-- **The accepted language and what it is compiled to.** A source is accepted exactly if its
text is a statement laid out with gaps and then bytes that do not open a block comment, without
closing it, before any token. Its lines are those of the statement, whatever the gaps are and
whatever follows. -/
theorem compile_accepts_iff {codec : Encoding} (options : Options) (source : Source)
    (hcodec : Encoding.find options.encoding.name = .ok codec) :
    ((∃ result, (compile options source).outcome = .ok result) ↔
      ∃ (layout : Layout) (rest : List Byte), layout.Valid ∧
        source.text = layout.bytes ++ rest ∧ ¬ Gap.EndsUnclosed rest) ∧
    ∀ (layout : Layout) (rest : List Byte), layout.Valid →
      source.text = layout.bytes ++ rest → ¬ Gap.EndsUnclosed rest →
      ∃ result, (compile options source).outcome = .ok result ∧
        result.instructions = layout.lines := by
  have haccepts (layout : Layout) (rest : List Byte) (hvalid : layout.Valid)
      (htext : source.text = layout.bytes ++ rest) (hclosed : ¬ Gap.EndsUnclosed rest) :
      ∃ result, (compile options source).outcome = .ok result ∧
        result.instructions = layout.lines := by
    obtain ⟨tokens, houtcome⟩ := Layout.exists_outcome_of_valid hcodec hvalid htext hclosed
    exact ⟨_, houtcome, layout.lines_statement⟩
  refine ⟨⟨?_, ?_⟩, haccepts⟩
  · rintro ⟨result, houtcome⟩
    exact Layout.exists_layout_of_outcome hcodec houtcome
  · rintro ⟨layout, rest, hvalid, htext, hclosed⟩
    obtain ⟨result, houtcome, _⟩ := haccepts layout rest hvalid htext hclosed
    exact ⟨result, houtcome⟩

/-- Comments that touch the tokens, a target that is an operand too, a literal that is cut off after
the semicolon, and a comment after the end that never closes. -/
theorem compile_accepts_iff_glued_comments :
    let source : Source := ⟨"glued", [0x6C, 0x65, 0x74, 0x2F, 0x2A, 0x2F, 0x2A, 0x2F, 0x78, 0x3D,
      0x30, 0x2D, 0x2F, 0x2A, 0x2A, 0x2F, 0x78, 0x3B, 0x22, 0x2F, 0x2A, 0x00, 0x2F, 0x2A]⟩
    let layout : Layout := ⟨[], [0x2F, 0x2A, 0x2F, 0x2A, 0x2F], [0x78], [], [], .number [0x30],
      [⟨[], .sub, [0x2F, 0x2A, 0x2A, 0x2F], .identifier [0x78]⟩], []⟩
    let rest : List Byte := [0x22, 0x2F, 0x2A]
    Encoding.find "utf-8" = .ok .utf8 ∧ layout.Valid ∧ source.text = layout.bytes ++ rest ∧
      ¬ Gap.EndsUnclosed rest ∧
      ∃ result, (compile .standard source).outcome = .ok result ∧
        result.instructions = ["push 0", "push x", "sub", "pop x"] := by
  intro source layout rest
  have hname : (Spelling.identifier [0x78]).Valid :=
    ⟨by decide, fun reserved => by cases reserved <;> decide⟩
  have hoperator : (⟨[], .sub, [0x2F, 0x2A, 0x2A, 0x2F], .identifier [0x78]⟩ : Link).Valid :=
    ⟨Gap.isGap_nil, ⟨[.blockComment []], by decide, rfl⟩, hname, Or.inr rfl⟩
  have hvalid : layout.Valid :=
    { beforeLet := Gap.isGap_nil
      beforeTarget := ⟨[.blockComment [0x2F]], by decide, rfl⟩
      apart := by decide
      target := hname
      beforeEquals := Gap.isGap_nil
      beforeFirst := Gap.isGap_nil
      first := ⟨Or.inl ⟨rfl, rfl⟩, Or.inl rfl⟩
      links := List.forall_mem_singleton.mpr hoperator
      beforeEnd := Gap.isGap_nil }
  have hclosed : ¬ Gap.EndsUnclosed rest := by
    rintro ⟨gap, comment, hgap, hcomment, hrest⟩
    have hread := Gap.read_eq_unclosed_iff.mpr ⟨hgap, hcomment, hrest⟩
    rw [Gap.read_of_clear rfl] at hread
    cases hread
  have htext : source.text = layout.bytes ++ rest := by decide
  exact ⟨rfl, hvalid, htext, hclosed,
    (compile_accepts_iff .standard source rfl).2 layout rest hvalid htext hclosed⟩

end LetLang
