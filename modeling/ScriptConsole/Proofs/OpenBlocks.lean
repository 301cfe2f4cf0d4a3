import ScriptConsole.Proofs.Failing
import ScriptConsole.Proofs.Grammar

/-!
# Open blocks and progress

`BlockCount` counts the blocks that are open in a sequence of tokens from the tokens alone. Every rule
of the parser ends, moves on to a later place or stays, and leaves the number of open blocks as the
count of the tokens says: after a success all blocks that were opened are closed, and after an error
those that are still open are left over (`reads_progress_and_count_blocks`).
-/

namespace ScriptConsole

namespace Parser

/-- How many blocks are open at a place between tokens. -/
structure BlockCount where
  blocks : Nat
  /-- The place is in the head of a function, whose block opens behind the closing parenthesis. -/
  inHead : Bool := false

namespace BlockCount

/-- What a token does to the count of open blocks. There is no count if a block is closed and none is
open. -/
def advance (count : BlockCount) (token : Token) : Option BlockCount :=
  match token.kind with
  | .keywordDo => some { count with blocks := count.blocks + 1 }
  | .keywordFunction => some { count with inHead := true }
  | .rightParen => some (if count.inHead then ⟨count.blocks + 1, false⟩ else count)
  | .keywordEnd => if count.blocks = 0 then none else some { count with blocks := count.blocks - 1 }
  | _ => some count

/-- The count behind a sequence of tokens. -/
def after (count : BlockCount) (tokens : List Token) : Option BlockCount :=
  tokens.foldlM advance count

/-- The tokens in front of `rest` lead from one count to another. -/
def Leads (count : BlockCount) (tokens rest : List Token) (last : BlockCount) : Prop :=
  ∃ used, tokens = used ++ rest ∧ count.after used = some last

variable {count next last : BlockCount} {token : Token} {tokens middle rest : List Token} {n : Nat}

lemma leads_refl (count : BlockCount) (tokens : List Token) : count.Leads tokens tokens count :=
  ⟨[], rfl, rfl⟩

lemma Leads.trans (h : count.Leads tokens middle next) (h' : next.Leads middle rest last) :
    count.Leads tokens rest last := by
  obtain ⟨used, rfl, hused⟩ := h
  obtain ⟨used', rfl, hused'⟩ := h'
  refine ⟨used ++ used', (List.append_assoc _ _ _).symm, ?_⟩
  rw [after, List.foldlM_append, ← after, hused]
  exact hused'

lemma leads_token (h : count.advance token = some next) (rest : List Token) :
    count.Leads (token :: rest) rest next := by
  refine ⟨[token], rfl, ?_⟩
  rw [after, List.foldlM_cons, h]
  rfl

lemma Leads.behind (h : next.Leads tokens rest last) (hstep : count.advance token = some next) :
    count.Leads (token :: tokens) rest last :=
  (leads_token hstep tokens).trans h

/-! What each kind of token does to a count. -/

lemma advance_kind {kind : Token.Kind} (h : token.kind = kind)
    (hplain : kind ∉ [Token.Kind.keywordDo, .keywordFunction, .rightParen, .keywordEnd]) :
    count.advance token = some count := by
  simp only [List.mem_cons, List.not_mem_nil, or_false, not_or] at hplain
  obtain ⟨hdo, hfunction, hparen, hend⟩ := hplain
  rw [advance, h]
  split
  · exact absurd rfl hdo
  · exact absurd rfl hfunction
  · exact absurd rfl hparen
  · exact absurd rfl hend
  · rfl

lemma advance_do (h : token.kind = .keywordDo) :
    advance ⟨n, false⟩ token = some ⟨n + 1, false⟩ := by
  rw [advance, h]

lemma advance_function (h : token.kind = .keywordFunction) :
    advance ⟨n, false⟩ token = some ⟨n, true⟩ := by
  rw [advance, h]

lemma advance_paren (h : token.kind = .rightParen) :
    advance ⟨n, false⟩ token = some ⟨n, false⟩ := by
  rw [advance, h]
  rfl

lemma advance_head (h : token.kind = .rightParen) :
    advance ⟨n, true⟩ token = some ⟨n + 1, false⟩ := by
  rw [advance, h]
  rfl

lemma advance_end (h : token.kind = .keywordEnd) :
    advance ⟨n + 1, false⟩ token = some ⟨n, false⟩ := by
  rw [advance, h]
  rfl

end BlockCount

open BlockCount

/-- What reading a phrase does to the count: statements close the block that they are in, and the
head of a function opens one. -/
def Phrase.Counted (tokens rest : List Token) : Phrase → Prop
  | .statements _ => ∀ n, Leads ⟨n + 1, false⟩ tokens rest ⟨n, false⟩
  | .signature _ _ | .parameters _ => ∀ n, Leads ⟨n, true⟩ tokens rest ⟨n + 1, false⟩
  | _ => ∀ n, Leads ⟨n, false⟩ tokens rest ⟨n, false⟩

/-- What is read leaves the count as it was, but for the parts of blocks and functions. -/
theorem Reads.counted {phrase : Phrase} {tokens rest : List Token} (h : Reads phrase tokens rest) :
    phrase.Counted tokens rest := by
  induction h with
  | statementBlock hdo _ ih | primaryBlock hdo _ ih =>
    exact fun n => (ih n).behind (advance_do hdo)
  | statementExpression _ _ ih | expressionAssignment _ _ ih | assignmentValue _ _ ih
  | operandSum _ ih | operandProduct _ ih | unaryPrimary _ _ ih => exact ih
  | statementsEnd hend => exact fun n => leads_token (advance_end hend) _
  | statementsCons _ _ _ ihfirst ihbody => exact fun n => (ihfirst (n + 1)).trans (ihbody n)
  | expressionArray hopen _ ih => exact fun n => (ih n).behind (advance_kind hopen (by decide))
  | expressionFunction hkeyword _ _ ihsignature ihbody =>
    exact fun n => ((ihsignature n).trans (ihbody n)).behind (advance_function hkeyword)
  | slotsEnd hclose => exact fun n => leads_token (advance_kind hclose (by decide)) _
  | slotsEmpty hcomma _ ih => exact fun n => (ih n).behind (advance_kind hcomma (by decide))
  | slotsComma _ _ hcomma _ ihfirst ihslots | argumentsComma _ _ hcomma _ ihfirst ihslots =>
    exact fun n => (ihfirst n).trans ((ihslots n).behind (advance_kind hcomma (by decide)))
  | slotsLast _ _ hclose ihfirst =>
    exact fun n => (ihfirst n).trans (leads_token (advance_kind hclose (by decide)) _)
  | signatureNameless hopen _ ih => exact fun n => (ih n).behind (advance_kind hopen (by decide))
  | signatureNamed hname hopen _ ih =>
    exact fun n => ((ih n).behind (advance_kind hopen (by decide))).behind
      (advance_kind hname (by decide))
  | parametersEnd hclose => exact fun n => leads_token (advance_head hclose) _
  | parametersComma hname hcomma _ ih =>
    exact fun n => ((ih n).behind (advance_kind hcomma (by decide))).behind
      (advance_kind hname (by decide))
  | parametersLast hname hclose =>
    exact fun n => (leads_token (advance_head hclose) _).behind (advance_kind hname (by decide))
  | assignmentTo _ hshape hop _ _ ihleft ihright =>
    have hoperator := (looksLikeAssignment_and_iff.mp ⟨hshape, hop⟩).1
    exact fun n => (ihleft n).trans ((ihright n).behind (advance_kind hoperator (by decide)))
  | binary _ _ ihleft ihchain => exact fun n => (ihleft n).trans (ihchain n)
  | chainEnd _ => exact fun n => leads_refl _ _
  | chainCons hop _ _ ihright ihchain =>
    have hoperator := (operator?_eq_some_iff.mp hop).1.1
    exact fun n => ((ihright n).trans (ihchain n)).behind (advance_kind hoperator (by decide))
  | unarySign hop _ ih =>
    exact fun n => (ih n).behind (advance_kind (sign?_eq_some_iff.mp hop).1 (by decide))
  | primaryNumber hkind _ | primaryString hkind | primaryTrue hkind | primaryFalse hkind
  | primaryName hkind _ => exact fun n => leads_token (advance_kind hkind (by decide)) _
  | primaryGroup hopen _ hclose ih =>
    exact fun n => ((ih n).trans (leads_token (advance_paren hclose) _)).behind
      (advance_kind hopen (by decide))
  | primaryCall hname hopen _ ih =>
    exact fun n => ((ih n).behind (advance_kind hopen (by decide))).behind
      (advance_kind hname (by decide))
  | argumentsEnd hclose => exact fun n => leads_token (advance_paren hclose) _
  | argumentsLast _ _ hclose ihfirst =>
    exact fun n => (ihfirst n).trans (leads_token (advance_paren hclose) _)

/-- After a failure, the blocks that have been opened and not closed in the tokens in front of it are
counted as open. -/
def LeavesOpen (blocks : Nat) (tokens : List Token) (failure : Failure) : Prop :=
  ∃ opened inHead, failure.blocks = blocks + opened ∧
    ∀ n, Leads ⟨n, false⟩ tokens failure.rest ⟨n + opened, inHead⟩

section

variable {blocks : Nat} {token : Token} {tokens middle : List Token} {failure : Failure}

lemma leavesOpen_at (error : Error) (blocks : Nat) (tokens : List Token) :
    LeavesOpen blocks tokens ⟨error, blocks, tokens⟩ :=
  ⟨0, false, rfl, fun _ => leads_refl _ tokens⟩

lemma Wants.failure_eq {kinds : List Token.Kind} {fault : Fault} {refuse : Token → Error}
    (h : Wants kinds fault refuse blocks tokens failure) :
    failure = ⟨failure.error, blocks, tokens⟩ := by
  cases h with
  | out => rfl
  | other => rfl

lemma Wants.leavesOpen {kinds : List Token.Kind} {fault : Fault} {refuse : Token → Error}
    (h : Wants kinds fault refuse blocks tokens failure) : LeavesOpen blocks tokens failure := by
  rw [h.failure_eq]
  exact leavesOpen_at _ blocks tokens

/-- What has been read in front keeps the count. -/
lemma LeavesOpen.after (h : LeavesOpen blocks middle failure)
    (hread : ∀ n, Leads ⟨n, false⟩ tokens middle ⟨n, false⟩) : LeavesOpen blocks tokens failure := by
  obtain ⟨opened, inHead, hblocks, hleads⟩ := h
  exact ⟨opened, inHead, hblocks, fun n => (hread n).trans (hleads n)⟩

/-- What has been read in front opens a block. -/
lemma LeavesOpen.inside (h : LeavesOpen (blocks + 1) middle failure)
    (hopen : ∀ n, Leads ⟨n, false⟩ tokens middle ⟨n + 1, false⟩) :
    LeavesOpen blocks tokens failure := by
  obtain ⟨opened, inHead, hblocks, hleads⟩ := h
  refine ⟨opened + 1, inHead, by omega, fun n => ?_⟩
  have hrest := (hopen n).trans (hleads (n + 1))
  rwa [Nat.add_right_comm] at hrest

lemma LeavesOpen.behind (h : LeavesOpen blocks tokens failure) {kind : Token.Kind}
    (hkind : token.kind = kind)
    (hplain : kind ∉ [Token.Kind.keywordDo, .keywordFunction, .rightParen, .keywordEnd]) :
    LeavesOpen blocks (token :: tokens) failure :=
  h.after fun _ => leads_token (advance_kind hkind hplain) tokens

end

/-- Where a rule fails: no block is opened in the head of a function. -/
def Goal.Counted (blocks : Nat) (tokens : List Token) (failure : Failure) : Goal → Prop
  | .signature | .parameters =>
    failure.blocks = blocks ∧ ∀ n, Leads ⟨n, true⟩ tokens failure.rest ⟨n, true⟩
  | _ => LeavesOpen blocks tokens failure

/-- Every failure leaves open the blocks that its tokens have opened and not closed. -/
theorem Fails.counted {goal : Goal} {blocks : Nat} {tokens : List Token} {failure : Failure}
    (h : Fails goal blocks tokens failure) : goal.Counted blocks tokens failure := by
  induction h with
  | statementBlock hdo _ ih | primaryBlock hdo _ ih =>
    exact ih.inside fun n => leads_token (advance_do hdo) _
  | statementExpression _ _ ih | expressionAssignment _ _ ih | statementsFirst _ _ ih
  | slotsFirst _ _ ih | assignmentLeft _ ih | binaryFirst _ ih | operandSum _ ih
  | operandProduct _ ih | unaryPrimary _ _ ih | argumentsFirst _ _ ih => exact ih
  | statementsOut | slotsOut | argumentsOut => exact leavesOpen_at _ _ _
  | statementsRest _ hfirst _ ih => exact ih.after hfirst.counted
  | expressionArray hopen _ ih => exact ih.behind hopen (by decide)
  | expressionSignature hkeyword _ ih =>
    exact ⟨0, true, ih.1, fun n => (ih.2 n).behind (advance_function hkeyword)⟩
  | expressionBody hkeyword hsignature _ ih =>
    exact ih.inside fun n => (hsignature.counted n).behind (advance_function hkeyword)
  | slotsEmpty hcomma _ ih => exact ih.behind hcomma (by decide)
  | slotsNext _ hfirst hnext | argumentsNext _ hfirst hnext =>
    exact hnext.leavesOpen.after hfirst.counted
  | slotsRest _ hfirst hcomma _ ih | argumentsRest _ hfirst hcomma _ ih =>
    exact (ih.behind hcomma (by decide)).after hfirst.counted
  | signatureStart hstart | parametersStart hstart =>
    rw [hstart.failure_eq]
    exact ⟨rfl, fun n => leads_refl _ _⟩
  | signatureNameless hopen _ ih =>
    exact ⟨ih.1, fun n => (ih.2 n).behind (advance_kind hopen (by decide))⟩
  | signatureOpen hname hopen | parametersNext hname hopen =>
    rw [hopen.failure_eq]
    exact ⟨rfl, fun n => leads_token (advance_kind hname (by decide)) _⟩
  | signatureNamed hname hnext _ ih | parametersRest hname hnext _ ih =>
    exact ⟨ih.1, fun n => ((ih.2 n).behind (advance_kind hnext (by decide))).behind
      (advance_kind hname (by decide))⟩
  | assignmentOperator hleft _ _ => exact (leavesOpen_at _ _ _).after hleft.counted
  | assignmentTarget hleft hshape hop _ =>
    have hoperator := (looksLikeAssignment_and_iff.mp ⟨hshape, hop⟩).1
    exact ((leavesOpen_at _ _ _).behind hoperator (by decide)).after hleft.counted
  | assignmentRight hleft hshape hop _ _ ih =>
    have hoperator := (looksLikeAssignment_and_iff.mp ⟨hshape, hop⟩).1
    exact (ih.behind hoperator (by decide)).after hleft.counted
  | binaryChain hleft _ ih => exact ih.after hleft.counted
  | chainRight hop _ ih => exact ih.behind (operator?_eq_some_iff.mp hop).1.1 (by decide)
  | chainRest hop hright _ ih =>
    exact (ih.after hright.counted).behind (operator?_eq_some_iff.mp hop).1.1 (by decide)
  | unarySign hop _ ih => exact ih.behind (sign?_eq_some_iff.mp hop).1 (by decide)
  | primaryStart hstart => exact hstart.leavesOpen
  | primaryNumber hkind _ => exact (leavesOpen_at _ _ _).behind hkind (by decide)
  | primaryGroup hopen _ ih => exact ih.behind hopen (by decide)
  | primaryClose hopen hinner hclose =>
    exact (hclose.leavesOpen.after hinner.counted).behind hopen (by decide)
  | primaryCall hname hopen _ ih => exact (ih.behind hopen (by decide)).behind hname (by decide)

end Parser

namespace Rule

def phrase (node : Node) : Rule → Parser.Phrase
  | .statement => .statement node
  | .expression => .expression node

def goal : Rule → Parser.Goal
  | .statement => .statement
  | .expression => .expression

end Rule

namespace Cursor

/-- How many of the tokens stand in front of the cursor. -/
def place (tokens : List Token) (cursor : Cursor) : Nat :=
  tokens.length - cursor.tokens.length

/-- The cursor after a sequence of rules, whether they succeed or fail. -/
def afterAll (rules : List Rule) (cursor : Cursor) : Cursor :=
  rules.foldl (fun cursor rule => (cursor.read rule).2) cursor

/-- A rule either reads a tree or fails, by a derivation of what it does. -/
lemma read_cases (rule : Rule) (cursor : Cursor) :
    (∃ node rest, cursor.read rule = (.ok node, ⟨rest, cursor.blocks⟩) ∧
      rest.length < cursor.tokens.length ∧ Parser.Reads (rule.phrase node) cursor.tokens rest) ∨
    ∃ failure : Parser.Failure,
      cursor.read rule = (.error failure.error, ⟨failure.rest, failure.blocks⟩) ∧
      Parser.Fails rule.goal cursor.blocks cursor.tokens failure := by
  cases rule with
  | statement =>
    rw [read]
    cases hreply : Parser.statement cursor.blocks cursor.tokens with
    | done node rest shorter =>
      exact .inl ⟨node, rest, rfl, shorter, Parser.reads_statement _ _ ⟨shorter, hreply⟩⟩
    | fail error blocks rest within =>
      exact .inr ⟨⟨error, blocks, rest⟩, rfl, Parser.fails_statement _ _ ⟨within, hreply⟩⟩
  | expression =>
    rw [read]
    cases hreply : Parser.expression cursor.blocks cursor.tokens with
    | done node rest shorter =>
      exact .inl ⟨node, rest, rfl, shorter, Parser.reads_expression _ _ ⟨shorter, hreply⟩⟩
    | fail error blocks rest within =>
      exact .inr ⟨⟨error, blocks, rest⟩, rfl, Parser.fails_expression _ _ ⟨within, hreply⟩⟩

/-- One rule: the tokens it has used, and the count of the blocks in them. -/
lemma exists_used (rule : Rule) (cursor : Cursor) :
    let next := (cursor.read rule).2
    ∃ used opened inHead, cursor.tokens = used ++ next.tokens ∧
      next.blocks = cursor.blocks + opened ∧
      (∀ n, Parser.BlockCount.after ⟨n, false⟩ used = some ⟨n + opened, inHead⟩) ∧
      match (cursor.read rule).1 with
      | .ok node => Parser.Reads (rule.phrase node) cursor.tokens next.tokens ∧ used ≠ [] ∧
          opened = 0 ∧ inHead = false
      | .error error =>
          Parser.Fails rule.goal cursor.blocks cursor.tokens ⟨error, next.blocks, next.tokens⟩ := by
  -- the tokens used are the same whatever the count starts with
  have hsame {rest used : List Token} {before after : Nat → Parser.BlockCount}
      (hused : cursor.tokens = used ++ rest)
      (hleads : ∀ n, (before n).Leads cursor.tokens rest (after n)) :
      ∀ n, (before n).after used = some (after n) := by
    intro n
    obtain ⟨used', hused', hcount⟩ := hleads n
    rwa [List.append_cancel_right (hused.symm.trans hused')]
  obtain ⟨node, rest, hread, hshorter, hreads⟩ | ⟨failure, hread, hfails⟩ := cursor.read_cases rule
  · rw [hread]
    have hcounted : ∀ n, Parser.BlockCount.Leads ⟨n, false⟩ cursor.tokens rest ⟨n, false⟩ := by
      cases rule with
      | statement => exact hreads.counted
      | expression => exact hreads.counted
    obtain ⟨used, hused, -⟩ := hcounted 0
    refine ⟨used, 0, false, hused, rfl, hsame hused hcounted, hreads, ?_, rfl, rfl⟩
    rintro rfl
    rw [hused] at hshorter
    exact absurd hshorter (Nat.lt_irrefl _)
  · rw [hread]
    have hcounted : Parser.LeavesOpen cursor.blocks cursor.tokens failure := by
      cases rule with
      | statement => exact hfails.counted
      | expression => exact hfails.counted
    obtain ⟨opened, inHead, hblocks, hleads⟩ := hcounted
    obtain ⟨used, hused, -⟩ := hleads 0
    exact ⟨used, opened, inHead, hused, hblocks, hsame hused hleads, hfails⟩

lemma tokens_afterAll_suffix (rules : List Rule) (cursor : Cursor) :
    (afterAll rules cursor).tokens <:+ cursor.tokens := by
  induction rules generalizing cursor with
  | nil => exact List.suffix_refl _
  | cons rule rules ih =>
    obtain ⟨used, _, _, hused, -⟩ := exists_used rule cursor
    exact (ih _).trans (hused ▸ List.suffix_append used _)

/-- For any tokens and any sequence of rules, going on after errors: the next rule reads a tree or
fails by a finite derivation. It uses the tokens from the place where the cursor stands up to the
place where it stands afterwards, at least one if it succeeds. Counted from any number of open blocks,
also from none, the tokens used close no block that they have not opened; a success leaves none open,
and a failure adds those left open to the number of open blocks. -/
theorem reads_progress_and_count_blocks (tokens : List Token) (rules : List Rule) (rule : Rule) :
    let cursor := afterAll rules ⟨tokens, 0⟩
    let next := (cursor.read rule).2
    cursor.tokens = tokens.drop (cursor.place tokens) ∧ next.tokens = tokens.drop (next.place tokens) ∧
      cursor.place tokens ≤ next.place tokens ∧ next.place tokens ≤ tokens.length ∧
      ∃ used opened inHead, cursor.tokens = used ++ next.tokens ∧
        next.blocks = cursor.blocks + opened ∧
        (∀ n, Parser.BlockCount.after ⟨n, false⟩ used = some ⟨n + opened, inHead⟩) ∧
        match (cursor.read rule).1 with
        | .ok node => Parser.Reads (rule.phrase node) cursor.tokens next.tokens ∧
            cursor.place tokens < next.place tokens ∧ opened = 0 ∧ inHead = false
        | .error error =>
            Parser.Fails rule.goal cursor.blocks cursor.tokens
              ⟨error, next.blocks, next.tokens⟩ := by
  intro cursor next
  have hcursor : cursor.tokens <:+ tokens := tokens_afterAll_suffix rules ⟨tokens, 0⟩
  obtain ⟨used, opened, inHead, hused, hblocks, hcount, hanswer⟩ := exists_used rule cursor
  change cursor.tokens = used ++ next.tokens at hused
  have hnext : next.tokens <:+ tokens := (List.suffix_append used _).trans (hused ▸ hcursor)
  have hlength := congrArg List.length hused
  rw [List.length_append] at hlength
  have hwithin := hcursor.length_le
  refine ⟨List.suffix_iff_eq_drop.mp hcursor, List.suffix_iff_eq_drop.mp hnext, ?_,
    Nat.sub_le _ _, used, opened, inHead, hused, hblocks, hcount, ?_⟩
  · unfold place
    omega
  · cases hread : (cursor.read rule).1 with
    | error error =>
      rw [hread] at hanswer
      exact hanswer
    | ok node =>
      rw [hread] at hanswer
      obtain ⟨hreads, hne, hopened, hhead⟩ := hanswer
      have hpos := List.length_pos_iff.mpr hne
      refine ⟨hreads, ?_, hopened, hhead⟩
      unfold place
      omega

end Cursor

end ScriptConsole
