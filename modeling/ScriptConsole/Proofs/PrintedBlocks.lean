import ScriptConsole.Proofs.RoundTrip

/-!
# Printed blocks are read back unless statements run together

A block is printed in one pass from left to right, in which a statement that ends in a name gets
parentheses if the next one starts with a parenthesis. A statement that has got parentheses this way
is not held against the one before it any more. `parse_print_block_iff` says for which blocks that is
noticed: those with three statements in a row of which the first two end in a name and, of the last
two, only the third starts with a parenthesis.
-/

namespace ScriptConsole

/-- Three parts stand in a row of which the first two end in a name and, of the last two, only the
third starts with a parenthesis, given what it is to end in a name and to start with a parenthesis. -/
def RunTogether {α : Type} (ends starts : α → Bool) : List α → Prop
  | first :: second :: third :: rest =>
    (ends first = true ∧ ends second = true ∧ starts second = false ∧ starts third = true) ∨
      RunTogether ends starts (second :: third :: rest)
  | _ => False

/-- Whether parts run together depends only on how they end and start. -/
lemma runTogether_iff_of_forall₂ {α β : Type} {ends starts : α → Bool} {ends' starts' : β → Bool}
    {parts : List α} {parts' : List β}
    (h : List.Forall₂ (fun part part' => ends part = ends' part' ∧ starts part = starts' part')
      parts parts') :
    RunTogether ends starts parts ↔ RunTogether ends' starts' parts' := by
  induction h with
  | nil => rfl
  | cons hfirst hrest ih =>
    match hrest, ih with
    | .nil, _ | .cons _ .nil, _ => rfl
    | .cons hsecond (.cons hthird _), ih =>
      rw [RunTogether, RunTogether, hfirst.1, hsecond.1, hsecond.2, hthird.2, ih]

namespace Token

/-- The two parts do not make a call of a name when they stand next to each other. -/
def Apart (part next : List Token) : Prop :=
  endsInName part = true → startsWithParen next = false

lemma parenthesise_ne_nil (tokens : List Token) : parenthesise tokens ≠ [] :=
  List.cons_ne_nil _ _

lemma startsWithParen_parenthesise (tokens : List Token) :
    startsWithParen (parenthesise tokens) = true :=
  rfl

/-- The tokens between parentheses if they start with a sign. -/
def parenthesiseSigned (tokens : List Token) : List Token :=
  if startsWithSign tokens then parenthesise tokens else tokens

/-- The tokens between parentheses if they end in a name and the next ones start with a parenthesis. -/
def guard (tokens next : List Token) : List Token :=
  if startsWithParen next && endsInName tokens then parenthesise tokens else tokens

lemma guard_eq_or (tokens next : List Token) :
    guard tokens next = tokens ∨ guard tokens next = parenthesise tokens := by
  rw [guard]
  split
  · exact .inr rfl
  · exact .inl rfl

lemma separateAfter_cons (previous next : List Token) (rest : List (List Token)) :
    separateAfter previous (next :: rest) =
      guard previous (parenthesiseSigned next) :: separateAfter (parenthesiseSigned next) rest :=
  rfl

lemma apart_guard (tokens next : List Token) : Apart (guard tokens next) next := by
  unfold Apart guard
  cases startsWithParen next <;> cases hname : endsInName tokens <;> simp [hname]

/-- Parts are set apart from the next ones as they were, and not as they have become. -/
lemma apart_guard_guard_iff (first second third : List Token) :
    Apart (guard first second) (guard second third) ↔
      ¬(endsInName first = true ∧ endsInName second = true ∧ startsWithParen second = false ∧
        startsWithParen third = true) := by
  unfold Apart guard
  cases hfirst : endsInName first <;> cases hsecond : endsInName second <;>
    cases hparen : startsWithParen second <;> cases startsWithParen third <;>
      simp [hfirst, hparen, startsWithParen_parenthesise]

/-- The pass over the statements of a block leaves all of them apart unless three run together. -/
lemma isChain_separateAfter_iff (previous : List Token) (parts : List (List Token)) :
    (separateAfter previous parts).IsChain Apart ↔
      ¬RunTogether endsInName startsWithParen (previous :: parts.map parenthesiseSigned) := by
  induction parts generalizing previous with
  | nil => simp [separateAfter, RunTogether]
  | cons next parts ih =>
    cases parts with
    | nil =>
      have hapart := apart_guard previous (parenthesiseSigned next)
      rw [separateAfter_cons]
      simp only [separateAfter, RunTogether, List.map_cons, List.map_nil, List.isChain_pair, hapart,
        not_false_eq_true]
    | cons third parts =>
      have hrest := ih (parenthesiseSigned next)
      rw [List.map_cons] at hrest
      rw [separateAfter_cons] at hrest ⊢
      rw [separateAfter_cons, List.isChain_cons_cons, hrest, apart_guard_guard_iff, List.map_cons,
        List.map_cons, RunTogether, not_or]

end Token

namespace Parser

lemma Reads.statement_unique {node node' : Node} {tokens rest rest' : List Token}
    (h : Reads (.statement node) tokens rest) (h' : Reads (.statement node') tokens rest') :
    node = node' ∧ rest = rest' := by
  obtain ⟨_, hgiven⟩ := given_of_reads h 0
  obtain ⟨_, hgiven'⟩ := given_of_reads h' 0
  rw [hgiven] at hgiven'
  cases hgiven'
  exact ⟨rfl, rfl⟩

/-- A part is not called by a next one that it is apart from. -/
lemma uncalled_of_apart {part next : List Token} (h : Token.Apart part next) (hne : next ≠ [])
    (rest : List Token) : Uncalled part (next ++ rest) := by
  intro hname
  have hparen := h hname
  obtain ⟨token, tokens, rfl⟩ := List.exists_cons_of_ne_nil hne
  have hkind : token.kind ≠ .leftParen := by
    simpa [Token.startsWithParen] using hparen
  exact ahead_cons.mpr hkind

/-- The tokens are read as the expression but for parentheses, also where a statement starts. If a
name stands at their end, parentheses behind it make another expression of them. -/
structure StandsFor (tokens : List Token) (expression : Node) : Prop where
  ne_nil : tokens ≠ []
  starts : Ahead (·.kind ≠ .keywordDo) tokens
  ends : Token.startsWithSign tokens = false → Ahead Ends tokens
  reads : ∃ node, ReadsAs tokens node 0 ∧ node.plain = expression.plain
  called : Token.endsInName tokens = true → ∀ inside argument, ReadsAs inside argument 0 →
    ∃ node, ReadsAs (tokens ++ Token.parenthesise inside) node 0 ∧ node.plain ≠ expression.plain

section

variable {tokens rest : List Token} {expression : Node}

lemma StandsFor.parenthesise (h : StandsFor tokens expression) :
    StandsFor (Token.parenthesise tokens) expression where
  ne_nil := Token.parenthesise_ne_nil tokens
  starts := ahead_cons.mpr (by decide)
  ends _ := ahead_ends_cons _ (by decide)
  reads := by
    obtain ⟨node, hreads, hplain⟩ := h.reads
    have hgroup := readsAs_of_primary fun rest _ => hreads.parenthesise rest
    exact ⟨node.withGrouped true, hgroup.mono (by decide), by rw [node.plain_withGrouped, hplain]⟩
  called hname := by
    rw [Token.endsInName_parenthesise] at hname
    cases hname

lemma StandsFor.parenthesiseSigned (h : StandsFor tokens expression) :
    StandsFor (Token.parenthesiseSigned tokens) expression := by
  rw [Token.parenthesiseSigned]
  split
  · exact h.parenthesise
  · exact h

lemma StandsFor.ends_parenthesiseSigned (h : StandsFor tokens expression) :
    Ahead Ends (Token.parenthesiseSigned tokens) := by
  rw [Token.parenthesiseSigned]
  split
  · exact ahead_ends_cons _ (by decide)
  · next hsign => exact h.ends (Bool.not_eq_true _ ▸ hsign)

lemma StandsFor.guard (h : StandsFor tokens expression) (next : List Token) :
    StandsFor (Token.guard tokens next) expression := by
  obtain heq | heq := Token.guard_eq_or tokens next <;> rw [heq]
  · exact h
  · exact h.parenthesise

lemma StandsFor.reads_statement (h : StandsFor tokens expression) (hclear : Uncalled tokens rest)
    (hends : Ahead Ends rest) : ∃ node, Reads (.statement (.statement node)) (tokens ++ rest) rest ∧
      node.plain = expression.plain := by
  obtain ⟨node, hreads, hplain⟩ := h.reads
  exact ⟨node, .statementExpression (h.starts.append (.inl h.ne_nil)) (hreads rest hclear hends), hplain⟩

/-- A statement that ends in a name takes the next one in if that stands between parentheses. -/
lemma StandsFor.reads_called {next : List Token} {expression' : Node} (h : StandsFor tokens expression)
    (hname : Token.endsInName tokens = true) (hnext : StandsFor next expression')
    (hends : Ahead Ends rest) :
    ∃ node, Reads (.statement (.statement node)) (tokens ++ (Token.parenthesise next ++ rest)) rest ∧
      node.plain ≠ expression.plain := by
  obtain ⟨argument, hargument, -⟩ := hnext.reads
  obtain ⟨node, hreads, hplain⟩ := h.called hname next argument hargument
  have hclear : Uncalled (tokens ++ Token.parenthesise next) rest := by
    intro hname
    rw [Token.endsInName_append (Token.parenthesise_ne_nil next), Token.endsInName_parenthesise] at hname
    cases hname
  have hexpression := hreads rest hclear hends
  rw [List.append_assoc] at hexpression
  exact ⟨node, .statementExpression (h.starts.append (.inl h.ne_nil)) hexpression, hplain⟩

end

end Parser

namespace Node

open ScriptConsole.Parser (Reads ReadsAs Ends StandsFor readsAs_of_primary)
open Token (opening closing blockEnd)

lemma reads_argument {argument : Node} {inside : List Token} (h : ReadsAs inside argument 0)
    (rest : List Token) : Reads (.arguments [argument]) (inside ++ closing :: rest) rest := by
  have hinside := h (closing :: rest) (Parser.uncalled_cons inside rest (by decide))
    (Parser.ahead_ends_cons rest (by decide))
  exact .argumentsLast (hinside.kind_ne (by simp [Parser.Phrase.avoids])) hinside rfl

/-- A name at the end of an expression is called with what stands between parentheses behind it. The
call takes the place of the name, so that the expression is another one. -/
lemma exists_readsAs_called (node : Node) (h : node.All Legible) {bound : Nat}
    (hbinds : node.Binds bound) (hname : Token.endsInName node.tokens = true)
    {inside : List Token} {argument : Node} (hinside : ReadsAs inside argument 0) :
    ∃ called, ReadsAs (node.tokens ++ Token.parenthesise inside) called bound ∧
      called.plain ≠ node.plain := by
  have hne (tokens : List Token) : tokens ++ Token.parenthesise inside ≠ [] :=
    List.append_ne_nil_of_right_ne_nil _ (Token.parenthesise_ne_nil inside)
  match node, h with
  | .identifier name false, _ =>
    have hcall : ReadsAs (⟨.identifier, name⟩ :: Token.parenthesise inside)
        (.call name [argument]) 4 := by
      refine readsAs_of_primary fun rest _ => ?_
      have harguments := reads_argument hinside rest
      rw [List.append_cons] at harguments
      exact @Reads.primaryCall ⟨.identifier, name⟩ opening _ _ _ rfl rfl harguments
    exact ⟨_, hcall.mono (hbinds.2 rfl), by simp [plain]⟩
  | .unary op operand false, h =>
    obtain ⟨⟨hoperand, -⟩, hall⟩ := h
    have hlast : Token.endsInName operand.tokens = true := by
      rwa [← Token.endsInName_cons operand.tokens_ne_nil]
    obtain ⟨called, hreads, hplain⟩ := exists_readsAs_called operand hall hoperand hlast hinside
    exact ⟨.unary op called, (hreads.unary op (hne _)).mono (hbinds.2 rfl), by simpa [plain] using hplain⟩
  | .binary op left right false, h =>
    obtain ⟨⟨⟨hleft, hright⟩, -⟩, hallLeft, hallRight⟩ := h
    rw [tokens, wrapTokens, if_neg Bool.false_ne_true] at hname ⊢
    rw [List.append_cons, Token.endsInName_append right.tokens_ne_nil] at hname
    obtain ⟨called, hreads, hplain⟩ := exists_readsAs_called right hallRight hright hname hinside
    have hbinary := (readsBack left hallLeft hleft).binary op (hne _) hreads
    rw [← List.cons_append, ← List.append_assoc] at hbinary
    exact ⟨_, hbinary.mono (hbinds.2 rfl), by simp [plain, hplain]⟩
  | .assignment op left right false, h =>
    obtain ⟨⟨⟨htarget, hright⟩, -⟩, hallLeft, hallRight⟩ := h
    rw [tokens, wrapTokens, if_neg Bool.false_ne_true] at hname ⊢
    rw [List.append_cons, Token.endsInName_append right.tokens_ne_nil] at hname
    obtain ⟨called, hreads, hplain⟩ := exists_readsAs_called right hallRight hright hname hinside
    rw [← isTarget_iff] at htarget
    have hleft : left.ReadsBack 1 := readsBack left hallLeft (binds_of_isTarget htarget (by decide))
    have hassignment := hleft.assignment op (isTarget_reread htarget) (hne _) hreads
    rw [← List.cons_append, ← List.append_assoc] at hassignment
    exact ⟨_, hassignment.mono (hbinds.2 rfl), by simp [plain, hplain]⟩
  | .statement .., _ => cases hbinds.1
  -- the others end in a token of another kind
  | .literal (.number _) false, _ | .literal (.string _) false, _ | .literal (.bool true) false, _
  | .literal (.bool false) false, _ => cases hname
  | .literal .null false, h => exact h.1.elim
  | .function _ _ body false, h =>
    obtain ⟨⟨⟨-, -, inner, rfl⟩, -⟩, -⟩ := h
    exact absurd (hname.symm.trans (Token.endsInName_append_singleton _ _)) (by decide)
  | .array _ false, _ | .block _ false, _ | .call _ _ false, _ =>
    exact absurd (hname.symm.trans (Token.endsInName_append_singleton _ _)) (by decide)
  | .identifier _ true, _ | .literal _ true, _ | .array _ true, _ | .function _ _ _ true, _
  | .block _ true, _ | .assignment _ _ _ true, _ | .binary _ _ _ true, _ | .unary _ _ true, _
  | .call _ _ true, _ =>
    rw [tokens_eq_wrap] at hname
    cases hname.symm.trans (Token.endsInName_parenthesise _)

/-- A statement that is parsed again from its printed text stands for itself. -/
lemma standsFor_of_parse {expression : Node}
    (h : parse (Node.statement expression).print = .ok (some (.statement expression))) :
    StandsFor expression.tokens expression := by
  obtain ⟨hlegible, his⟩ := legible_of_parse h
  have hreread := parse_print_of_legible hlegible his
  rw [h] at hreread
  have hplain : expression.reread = expression := by
    simpa [reread, groupSigned, trimmed] using hreread.symm
  obtain ⟨⟨hbinds, hdo⟩, hall⟩ := hlegible
  have hreads := readsBack expression hall hbinds
  rw [ReadsBack, hplain] at hreads
  refine ⟨expression.tokens_ne_nil, hdo, fun hsign => ?_, ⟨expression, hreads, rfl⟩,
    fun hname _ _ hinside => exists_readsAs_called expression hall hbinds hname hinside⟩
  have hends := ahead_ends_laterTokens (all_regular_of_legible hall) []
  rw [laterTokens, hsign, List.append_nil] at hends
  exact hends

/-- The expressions are read as statements up to the end of a block, but for parentheses. -/
def BodyReads (tokens rest : List Token) (expressions : List Node) : Prop :=
  ∃ body, Reads (.statements body) tokens rest ∧
    body.map plain = expressions.map fun expression => (Node.statement expression).plain

section

variable {tokens middle rest previous : List Token} {node expression : Node}
  {expressions : List Node}

lemma bodyReads_nil (rest : List Token) : BodyReads (blockEnd :: rest) rest [] :=
  ⟨[], .statementsEnd rfl, rfl⟩

/-- What comes first in a block is read in one way only. -/
lemma bodyReads_cons_iff (h : Reads (.statement (.statement node)) tokens middle) :
    BodyReads tokens rest (expression :: expressions) ↔
      node.plain = expression.plain ∧ BodyReads middle rest expressions := by
  constructor
  · rintro ⟨body, hbody, hplain⟩
    cases hbody with
    | statementsEnd => cases hplain
    | statementsCons _ hfirst hlater =>
      obtain ⟨rfl, rfl⟩ := hfirst.statement_unique h
      obtain ⟨hhead, htail⟩ := List.cons.inj hplain
      exact ⟨(Node.statement.inj hhead).1, _, hlater, htail⟩
  · rintro ⟨hplain, body, hbody, htail⟩
    refine ⟨.statement node :: body, ?_, ?_⟩
    · exact .statementsCons (h.kind_ne (by simp [Parser.Phrase.avoids])) h hbody
    · rw [List.map_cons, List.map_cons, htail, plain, plain, hplain]

/-- Nothing continues over the start of a statement that has been set apart. -/
lemma ahead_ends_separateAfter (h : Ahead Ends previous) (hne : previous ≠ [])
    (parts : List (List Token)) (rest : List Token) :
    Ahead Ends ((Token.separateAfter previous parts).flatten ++ rest) := by
  cases parts with
  | nil =>
    have happend : Ahead Ends (previous ++ rest) := h.append (.inl hne)
    simpa [Token.separateAfter] using happend
  | cons next parts =>
    rw [Token.separateAfter_cons, List.flatten_cons, List.append_assoc]
    obtain heq | heq := Token.guard_eq_or previous (Token.parenthesiseSigned next) <;> rw [heq]
    · exact h.append (.inl hne)
    · exact Parser.ahead_ends_cons _ (by decide)

/-- The first part that is set apart is the one before, and another statement or the end follows. -/
lemma exists_separateAfter_eq (previous : List Token)
    (h : ∀ expression ∈ expressions, StandsFor expression.tokens expression) (rest : List Token) :
    ∃ part parts, Token.separateAfter previous (tokensAll expressions) = part :: parts ∧
      (part = previous ∨ part = Token.parenthesise previous) ∧
        Ahead Ends (parts.flatten ++ blockEnd :: rest) := by
  cases expressions with
  | nil => exact ⟨previous, [], rfl, .inl rfl, Parser.ahead_ends_cons rest (by decide)⟩
  | cons next expressions =>
    have hnext := h next List.mem_cons_self
    exact ⟨_, _, rfl, Token.guard_eq_or _ _, ahead_ends_separateAfter hnext.ends_parenthesiseSigned
      hnext.parenthesiseSigned.ne_nil _ _⟩

/-- Statements that have been set apart are read one by one exactly if each is apart from the next. -/
lemma bodyReads_separateAfter_iff (h : StandsFor previous expression)
    (hlater : ∀ expression ∈ expressions, StandsFor expression.tokens expression)
    (rest : List Token) :
    BodyReads ((Token.separateAfter previous (tokensAll expressions)).flatten ++ blockEnd :: rest)
        rest (expression :: expressions) ↔
      (Token.separateAfter previous (tokensAll expressions)).IsChain Token.Apart := by
  induction expressions generalizing previous expression with
  | nil =>
    obtain ⟨node, hreads, hplain⟩ := @StandsFor.reads_statement _ (blockEnd :: rest) _ h
      (Parser.uncalled_cons previous rest (by decide)) (Parser.ahead_ends_cons rest (by decide))
    simp only [tokensAll, Token.separateAfter, List.flatten_cons, List.flatten_nil, List.append_nil,
      List.isChain_singleton, iff_true]
    exact (bodyReads_cons_iff hreads).mpr ⟨hplain, bodyReads_nil rest⟩
  | cons next expressions ih =>
    obtain ⟨hnext, hlater⟩ := List.forall_mem_cons.mp hlater
    have hsigned := hnext.parenthesiseSigned
    have hends := ahead_ends_separateAfter hnext.ends_parenthesiseSigned hsigned.ne_nil
      (tokensAll expressions) (blockEnd :: rest)
    obtain ⟨part, parts, hparts, hpart, hends'⟩ :=
      exists_separateAfter_eq (Token.parenthesiseSigned next.tokens) hlater rest
    have hne : part ≠ [] := by
      obtain rfl | rfl := hpart
      · exact hsigned.ne_nil
      · exact Token.parenthesise_ne_nil _
    have hrest := ih hsigned hlater
    rw [hparts] at hrest hends
    have hguard := h.guard (Token.parenthesiseSigned next.tokens)
    rw [tokensAll, Token.separateAfter_cons, hparts, List.isChain_cons_cons, ← hrest,
      List.flatten_cons, List.append_assoc]
    by_cases hapart : Token.Apart (Token.guard previous (Token.parenthesiseSigned next.tokens)) part
    · have hclear := Parser.uncalled_of_apart hapart hne (parts.flatten ++ blockEnd :: rest)
      rw [← List.append_assoc, ← List.flatten_cons] at hclear
      obtain ⟨node, hreads, hplain⟩ := hguard.reads_statement hclear hends
      rw [bodyReads_cons_iff hreads]
      exact and_congr_left' (iff_of_true hplain hapart)
    · obtain ⟨hname, hparen⟩ := Classical.not_imp.mp hapart
      obtain rfl | rfl := hpart
      · exact absurd (Token.apart_guard _ _) hapart
      · obtain ⟨node, hreads, hplain⟩ := hguard.reads_called hname hsigned hends'
        rw [List.flatten_cons, List.append_assoc, bodyReads_cons_iff hreads]
        exact iff_of_false (fun hboth => hplain hboth.1) (fun hboth => hapart hboth.1)

end

/-- The statements of a block as they are held against each other: those behind the first one stand
between parentheses if they start with a sign. -/
def parenthesiseLater : List String → List String
  | [] => []
  | first :: rest => first :: rest.map parenthesiseSigned

lemma allIn_of_forall_mem {p : Node → Prop} {nodes : List Node} (h : ∀ node ∈ nodes, node.All p) :
    AllIn p nodes := by
  induction nodes with
  | nil => exact trivial
  | cons node nodes ih =>
    obtain ⟨hnode, hnodes⟩ := List.forall_mem_cons.mp h
    exact ⟨hnode, ih hnodes⟩

lemma tokensAll_map_statement (expressions : List Node) :
    tokensAll (expressions.map (.statement ·)) = tokensAll expressions := by
  induction expressions with
  | nil => rfl
  | cons expression expressions ih =>
    rw [List.map_cons, tokensAll, ih]
    rfl

lemma written_parenthesiseSigned {texts : List String} {parts : List (List Token)}
    (h : List.Forall₂ Token.Written texts parts) :
    List.Forall₂ Token.Written (texts.map parenthesiseSigned) (parts.map Token.parenthesiseSigned) := by
  rw [List.forall₂_map_left_iff, List.forall₂_map_right_iff]
  refine h.imp fun text part hwritten => ?_
  rw [parenthesiseSigned, Token.parenthesiseSigned, hwritten.startsWithSign_eq]
  exact Token.written_ite hwritten _

/-- The texts of statements run together exactly if their tokens do. -/
lemma runTogether_parenthesiseLater_iff {first : String} {texts : List String}
    {part : List Token} {parts : List (List Token)} (hfirst : Token.Written first part)
    (h : List.Forall₂ Token.Written texts parts) :
    RunTogether endsInName startsWithParen (parenthesiseLater (first :: texts)) ↔
      RunTogether Token.endsInName Token.startsWithParen
        (part :: parts.map Token.parenthesiseSigned) := by
  have hwritten := List.Forall₂.cons hfirst (written_parenthesiseSigned h)
  exact runTogether_iff_of_forall₂
    (hwritten.imp fun _ _ hpart => ⟨hpart.endsInName_eq, hpart.startsWithParen_eq⟩)

end Node

/-- A printed block is parsed as what its statements are read as, set apart from each other. -/
lemma Node.exists_parse_block_iff {expressions : List Node}
    (h : ∀ expression ∈ expressions, (Node.statement expression).All Node.Regular) :
    (∃ body, parse (Node.block (expressions.map (.statement ·))).print = .ok (some (.block body)) ∧
      body.map Node.plain = expressions.map fun expression => (Node.statement expression).plain) ↔
        Node.BodyReads ((Token.separate (Node.tokensAll expressions)).flatten ++ [Token.blockEnd]) []
          expressions := by
  have hregular : (Node.block (expressions.map (.statement ·))).All Node.Regular := by
    refine ⟨fun node hmem => ?_, Node.allIn_of_forall_mem (List.forall_mem_map.mpr h)⟩
    obtain ⟨expression, -, rfl⟩ := List.mem_map.mp hmem
    exact .inr ⟨expression, rfl⟩
  have htokens : (Node.block (expressions.map (.statement ·))).tokens = ⟨.keywordDo, "do"⟩ ::
      ((Token.separate (Node.tokensAll expressions)).flatten ++ [Token.blockEnd]) := by
    rw [Node.tokens, Node.tokensAll_map_statement]
    rfl
  refine exists_congr fun body => and_congr_left' ?_
  rw [Parser.parse_eq_some_iff, Node.scan_print hregular, htokens]
  constructor
  · rintro (⟨-, hbody⟩ | -)
    exact hbody
  · exact .statementBlock rfl

/-- Statements that are parsed again one by one from their printed texts are parsed again from the
printed text of their block, but for parentheses, if and only if no three of them run together. -/
theorem parse_print_block_iff {expressions : List Node}
    (h : ∀ expression ∈ expressions,
      parse (Node.statement expression).print = .ok (some (.statement expression))) :
    (∃ body, parse (Node.block (expressions.map (.statement ·))).print = .ok (some (.block body)) ∧
      body.map Node.plain = expressions.map fun expression => (Node.statement expression).plain) ↔
        ¬RunTogether Node.endsInName Node.startsWithParen
          (Node.parenthesiseLater (Node.printAll expressions)) := by
  have hregular (expression : Node) (hmem : expression ∈ expressions) :=
    Node.all_regular_of_legible (legible_of_parse (h expression hmem)).1
  rw [Node.exists_parse_block_iff hregular]
  cases expressions with
  | nil => exact iff_of_true (Node.bodyReads_nil []) id
  | cons first later =>
    obtain ⟨hfirst, hlater⟩ := List.forall_mem_cons.mp h
    obtain ⟨hregular, hregularLater⟩ := List.forall_mem_cons.mp hregular
    have hwritten := Node.written_print first hregular.2
    have hwrittenLater := Node.written_printAll later
      (Node.allIn_of_forall_mem fun expression hmem => (hregularLater expression hmem).2)
    have hstands (expression : Node) (hmem : expression ∈ later) :=
      Node.standsFor_of_parse (hlater expression hmem)
    calc Node.BodyReads ((Token.separateAfter first.tokens (Node.tokensAll later)).flatten ++
          [Token.blockEnd]) [] (first :: later)
        ↔ (Token.separateAfter first.tokens (Node.tokensAll later)).IsChain Token.Apart :=
          Node.bodyReads_separateAfter_iff (Node.standsFor_of_parse hfirst) hstands []
      _ ↔ ¬RunTogether Token.endsInName Token.startsWithParen
            (first.tokens :: (Node.tokensAll later).map Token.parenthesiseSigned) :=
          Token.isChain_separateAfter_iff _ _
      _ ↔ ¬RunTogether Node.endsInName Node.startsWithParen
            (Node.parenthesiseLater (Node.printAll (first :: later))) :=
          not_congr (Node.runTogether_parenthesiseLater_iff hwritten hwrittenLater).symm

/-- The expressions of the statements `x`, `y` and `(1)`. -/
def threeInARow : List Node :=
  [.identifier "x", .identifier "y", .literal (.number .one) true]

lemma parse_print_of_mem_threeInARow : ∀ expression ∈ threeInARow,
    parse (Node.statement expression).print = .ok (some (.statement expression)) := by
  intro expression hmem
  fin_cases hmem <;> cbv

theorem parse_print_block_threeInARow :
    (∃ body, parse (Node.block (threeInARow.map (.statement ·))).print = .ok (some (.block body)) ∧
      body.map Node.plain = threeInARow.map fun expression => (Node.statement expression).plain) ↔
        ¬RunTogether Node.endsInName Node.startsWithParen
          (Node.parenthesiseLater (Node.printAll threeInARow)) :=
  parse_print_block_iff parse_print_of_mem_threeInARow

/-- Of the statements `x`, `y` and `(1)`, the first two are parsed as a call when they stand in one
block, so that only two statements are left. -/
theorem statements_run_together_threeInARow :
    (∀ expression ∈ threeInARow,
      parse (Node.statement expression).print = .ok (some (.statement expression))) ∧
    (Node.block (threeInARow.map (.statement ·))).print = "do x (y) (1) end" ∧
    parse "do x (y) (1) end" = .ok (some (.block [.statement (.call "x" [.identifier "y"]),
      .statement (.literal (.number .one) true)])) :=
  ⟨parse_print_of_mem_threeInARow, by cbv, by cbv⟩

end ScriptConsole
