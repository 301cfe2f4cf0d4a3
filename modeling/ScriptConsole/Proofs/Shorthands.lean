import ScriptConsole.Proofs.Continuation
import ScriptConsole.Proofs.ErrorPhases
import ScriptConsole.Proofs.LexicalScoping

/-!
# Two ways to write the same

A compound assignment `x op= e` stands for `x = x op (e)`, and a definition with the keyword
`function` stands for an assignment to a pattern whose right side is a block. The two texts go through
different rules of the parser and through different branches of the evaluation. What they are read as
is worked out here for every right side and every body, also with comments and quotes that open
nothing in it, and the two evaluations turn out to be one computation
(`compound_assignment_is_plain`, `function_form_is_pattern_form`).
-/

namespace ScriptConsole

namespace Parser

/-- An expression that takes up all of its tokens can stand between parentheses as an operand. -/
lemma Reads.readsAs_parenthesise {tokens : List Token} {node : Node}
    (h : Reads (.expression node) tokens []) :
    ReadsAs (Token.parenthesise tokens) (node.withGrouped true) 4 := by
  apply readsAs_of_primary
  intro rest _
  have hclosing : Clear Token.closing := ⟨by decide, by decide⟩
  have hinner : Reads (.expression node) (tokens ++ Token.closing :: rest) (Token.closing :: rest) :=
    h.append (.inr (ahead_cons.mpr hclosing))
  have htokens : Token.parenthesise tokens ++ rest =
      Token.opening :: (tokens ++ Token.closing :: rest) := by
    simp [Token.parenthesise]
  rw [htokens]
  exact .primaryGroup rfl hinner rfl

/-- A text that is parsed as an expression used as a statement is read as this expression. -/
lemma reads_expression_of_parse {source : String} {inner : Node} {g : Bool}
    (h : parse source = .ok (some (.statement inner g))) :
    Reads (.expression inner) (Token.scan source) [] := by
  have hreads := parse_eq_some_iff.mp h
  cases hreads with
  | statementExpression _ hinner => exact hinner

end Parser

namespace Evaluation

/-- Parentheses around a tree do not change what it evaluates to. -/
lemma evaluateWith_withGrouped (call : Value → List Value → Eval Value) (scope : ScopeId)
    (node : Node) (g : Bool) :
    evaluateWith call scope (node.withGrouped g) = evaluateWith call scope node := by
  cases node with
  | assignment op left right k =>
    cases op <;> cases left <;> rfl
  | _ => rfl

end Evaluation

/-! ### Compound assignments -/

section Compound

open ScriptConsole.Parser (Reads ReadsAs)

variable {x : String} (hx : Token.IsName x) (op : BinaryOp)

include hx

lemma scan_compound (source : String) :
    Token.scan (x ++ " " ++ op.text ++ "= " ++ source) =
      ⟨.identifier, x⟩ :: ⟨.operator, (AssignOp.compound op).text⟩ :: Token.scan source := by
  have hop := Token.scans_token (AssignOp.compound op).fits_text
  have htext : x ++ " " ++ op.text ++ "= " ++ source =
      x ++ " " ++ (AssignOp.compound op).text ++ " " ++ source := by
    apply String.toList_injective
    simp [AssignOp.text]
  rw [htext]
  exact ((Node.written_name hx).scans.join hop).scan_space source

lemma scan_expanded (source : String) :
    Token.scan (x ++ " = " ++ x ++ " " ++ op.text ++ " (" ++ source ++ "\n)") =
      ⟨.identifier, x⟩ :: ⟨.operator, AssignOp.assign.text⟩ :: ⟨.identifier, x⟩ ::
        ⟨.operator, op.text⟩ :: Token.parenthesise (Token.scan source) := by
  have hname := (Node.written_name hx).scans
  have hassign := hname.join (Token.scans_token AssignOp.assign.fits_text)
  have hprefix := (hassign.join hname).join (Token.scans_token op.fits_text)
  have hclosing : Token.scan ")" = [Token.closing] := by cbv
  have hsource := Token.scan_append_line source (t := ")") (by decide)
  have htext : x ++ " = " ++ x ++ " " ++ op.text ++ " (" ++ source ++ "\n)" =
      x ++ " " ++ AssignOp.assign.text ++ " " ++ x ++ " " ++ op.text ++ " " ++
        ("(" ++ (source ++ "\n" ++ ")")) := by
    apply String.toList_injective
    simp [AssignOp.text]
  rw [htext, hprefix.scan_space, Token.scan, String.toList_append]
  change _ ++ Token.scanChars ('(' :: (source ++ "\n" ++ ")").toList) = _
  rw [Token.scanChars_punctuation (c := '(') rfl]
  change _ ++ _ :: Token.scan (source ++ "\n" ++ ")") = _
  rw [hsource, hclosing]
  rfl

/-- A compound assignment is read with the whole of the text behind it as its right side. -/
lemma parse_compound {source : String} {inner : Node} {g : Bool}
    (h : parse source = .ok (some (.statement inner g))) :
    parse (x ++ " " ++ op.text ++ "= " ++ source) =
      .ok (some (.statement (.assignment (.compound op) (.identifier x) inner))) := by
  rw [Parser.parse_eq_some_iff, scan_compound hx]
  have hleft : ReadsAs [⟨.identifier, x⟩] (.identifier x) 1 :=
    (Node.readsBack_identifier x).mono (by decide)
  have hreads := hleft.reads_assignment (.compound op) rfl (Parser.reads_expression_of_parse h)
  exact .statementExpression (ahead_cons.mpr (by simp)) hreads

/-- Between parentheses, with a line break behind it against comments, the text is an operand. -/
lemma parse_expanded {source : String} {inner : Node} {g : Bool}
    (h : parse source = .ok (some (.statement inner g))) :
    parse (x ++ " = " ++ x ++ " " ++ op.text ++ " (" ++ source ++ "\n)") =
      .ok (some (.statement (.assignment .assign (.identifier x)
        (.binary op (.identifier x) (inner.withGrouped true))))) := by
  rw [Parser.parse_eq_some_iff, scan_expanded hx]
  have hname : ReadsAs [⟨.identifier, x⟩] (.identifier x) 4 := Node.readsBack_identifier x
  have hgroup := (Parser.reads_expression_of_parse h).readsAs_parenthesise
  have htight : (Parser.levelOf op).tightness ≤ 2 := by
    cases op <;> decide
  have hne : Token.parenthesise (Token.scan source) ≠ [] := List.cons_ne_nil _ _
  have hvalue := (hname.mono (by omega)).binary op hne (hgroup.mono (by omega))
  have hright := hvalue.mono (Nat.zero_le _) [] (fun _ => ahead_nil) ahead_nil
  rw [List.append_nil] at hright
  have hreads := (hname.mono (by decide)).reads_assignment .assign rfl hright
  exact .statementExpression (ahead_cons.mpr (by simp)) hreads

end Compound

namespace Evaluation

/-- Both forms read the variable first, then evaluate the right side, and bind the variable last. -/
lemma evaluateWith_compound (call : Value → List Value → Eval Value) (scope : ScopeId) (x : String)
    (op : BinaryOp) (inner : Node) :
    evaluateWith call scope (.assignment (.compound op) (.identifier x) inner) =
      evaluateWith call scope (.assignment .assign (.identifier x)
        (.binary op (.identifier x) (inner.withGrouped true))) := by
  simp only [evaluateWith, evaluateWith_withGrouped, bind_assoc]

end Evaluation

/-- A compound assignment with any expression behind it and the plain assignment it stands for are
read as such, and in every session they have the same result and leave the same session behind. -/
theorem compound_assignment_is_plain {x source : String} {inner : Node} {g : Bool} (op : BinaryOp)
    (hx : Token.IsName x) (hsource : parse source = .ok (some (.statement inner g))) :
    let compound := x ++ " " ++ op.text ++ "= " ++ source
    let plain := x ++ " = " ++ x ++ " " ++ op.text ++ " (" ++ source ++ "\n)"
    parse compound =
        .ok (some (.statement (.assignment (.compound op) (.identifier x) inner))) ∧
      parse plain = .ok (some (.statement (.assignment .assign (.identifier x)
        (.binary op (.identifier x) (inner.withGrouped true))))) ∧
      ∀ session, Session.interpret compound session = Session.interpret plain session := by
  intro compound plain
  have hcompound := parse_compound hx op hsource
  have hplain := parse_expanded hx op hsource
  refine ⟨hcompound, hplain, ?_⟩
  intro session
  rw [Session.interpret_of_parse hcompound, Session.interpret_of_parse hplain, Evaluation.evaluate,
    Evaluation.evaluate, Evaluation.evaluateWith, Evaluation.evaluateWith,
    Evaluation.evaluateWith_compound]

/-- The right side overwrites the variable, and a comment with a quote in it follows. -/
theorem compound_assignment_overwritten :
    parse "x = 2 # \"" = .ok (some (.statement
        (.assignment .assign (.identifier "x") (.literal (.number ⟨2, by decide, by decide⟩))))) ∧
      ∀ session, Session.interpret "x -= x = 2 # \"" session =
        Session.interpret "x = x - (x = 2 # \"\n)" session := by
  have hx : Token.IsName "x" := ⟨'x', [], rfl, by decide, by simp, by decide⟩
  have hparse : parse "x = 2 # \"" = .ok (some (.statement
      (.assignment .assign (.identifier "x") (.literal (.number ⟨2, by decide, by decide⟩))))) := by
    cbv
  exact ⟨hparse, (compound_assignment_is_plain .subtract hx hparse).2.2⟩

/-! ### Definitions -/

namespace Store

variable {store : Store} {scope : ScopeId}

lemma find?_define_self {frames : List (ScopeId × Frame)}
    (h : (frames.any fun (id, _) => id == scope) = true) (name : String) (value : Value) :
    find? (frames.map fun (id, frame) =>
      (id, if id = scope then frame.define name value else frame)) scope name = some value := by
  induction frames with
  | nil => cases h
  | cons entry frames ih =>
    obtain ⟨id, frame⟩ := entry
    rw [List.map_cons, find?]
    by_cases hid : id = scope
    · rw [if_pos hid, if_pos hid, Frame.get?_define, if_pos rfl]
    · rw [if_neg hid]
      apply ih
      simpa [hid] using h

lemma find?_define_of_ne {name other : String} (h : other ≠ name) (value : Value)
    (frames : List (ScopeId × Frame)) (place : ScopeId) :
    find? (frames.map fun (id, frame) =>
      (id, if id = scope then frame.define name value else frame)) place other =
      find? frames place other := by
  induction frames generalizing place with
  | nil => rfl
  | cons entry frames ih =>
    obtain ⟨id, frame⟩ := entry
    have hframe : (if id = scope then frame.define name value else frame).get? other =
        frame.get? other := by
      split
      · rw [Frame.get?_define, if_neg h]
      · rfl
    have hparent : (if id = scope then frame.define name value else frame).parent =
        frame.parent := by
      split <;> rfl
    rw [List.map_cons, find?, find?, hframe, hparent, ih]
    simp only [ih]

/-- What a scope binds a name to is what the name is found bound to there. -/
lemma get_define_self (h : store.isLive scope = true) (name : String) (value : Value) :
    (store.define scope name value).get scope name = value := by
  have hfind : find? (store.define scope name value).frames scope name = some value :=
    find?_define_self h name value
  rw [get, hfind]

lemma get_define_of_ne {name other : String} (h : other ≠ name) (value : Value)
    (place : ScopeId) :
    (store.define scope name value).get place other = store.get place other := by
  have hfind : find? (store.define scope name value).frames place other =
      find? store.frames place other :=
    find?_define_of_ne h value store.frames place
  rw [get, get, hfind]

end Store

namespace Node

/-- The left side of a definition: the name of the function with its parameters. -/
def heading (name : String) (params : List String) : Node :=
  .call name (params.map fun param => .identifier param)

lemma tokensAll_identifiers (params : List String) :
    tokensAll (params.map fun param => .identifier param) =
      params.map fun param => [⟨.identifier, param⟩] := by
  induction params with
  | nil => rfl
  | cons param params ih => exact congrArg ([⟨.identifier, param⟩] :: ·) ih

lemma reread_identifiers (params : List String) :
    trimmedAll (groupSignedAll (params.map fun param => .identifier param)) =
      params.map fun param => .identifier param := by
  induction params with
  | nil => rfl
  | cons param params ih => exact congrArg (.identifier param :: ·) ih

lemma scans_heading {name : String} {params : List String} (hname : Token.IsName name)
    (hparams : ∀ param ∈ params, Token.IsName param) :
    Token.Scans (name ++ "(" ++ ", ".intercalate params ++ ")") (heading name params).tokens := by
  have hlist : List.Forall₂ Token.Written params
      (tokensAll (params.map fun param => .identifier param)) := by
    rw [tokensAll_identifiers, List.forall₂_map_right_iff, List.forall₂_same]
    intro param hparam
    exact written_name (hparams param hparam)
  exact (written_call hname hlist).scans

lemma readsAs_heading (name : String) (params : List String) :
    Parser.ReadsAs (heading name params).tokens (heading name params) 4 := by
  have hreads : (heading name params).ReadsBack 4 := by
    apply readsBack_call
    intro node hnode
    obtain ⟨param, -, rfl⟩ := List.mem_map.mp hnode
    exact (readsBack_identifier param).mono (by decide)
  have hreread : (heading name params).reread = heading name params :=
    congrArg (Node.call name ·) (reread_identifiers params)
  rwa [ReadsBack, hreread] at hreads

end Node

section Definition

open ScriptConsole.Parser (Reads)

variable {name : String} {params : List String}

/-- A pattern can be defined to be whatever expression the text behind the equals sign is. -/
lemma parse_definition {source : String} {right : Node} (hname : Token.IsName name)
    (hparams : ∀ param ∈ params, Token.IsName param)
    (hright : Reads (.expression right) (Token.scan source) []) :
    parse (name ++ "(" ++ ", ".intercalate params ++ ") = " ++ source) =
      .ok (some (.statement (.assignment .assign (.heading name params) right))) := by
  have hscans := (Node.scans_heading hname hparams).join (Token.scans_token AssignOp.assign.fits_text)
  have htext : name ++ "(" ++ ", ".intercalate params ++ ") = " ++ source =
      name ++ "(" ++ ", ".intercalate params ++ ")" ++ " " ++ AssignOp.assign.text ++ " " ++
        source := by
    apply String.toList_injective
    simp [AssignOp.text]
  rw [Parser.parse_eq_some_iff, htext, hscans.scan_space, List.append_assoc]
  have hheading : Parser.ReadsAs (Node.heading name params).tokens (.heading name params) 1 :=
    (Node.readsAs_heading name params).mono (by decide)
  exact .statementExpression (ahead_cons.mpr (by simp))
    (hheading.reads_assignment .assign rfl hright)

lemma parse_block_definition {source : String} {statements : List Node} (hname : Token.IsName name)
    (hparams : ∀ param ∈ params, Token.IsName param)
    (hbody : Reads (.statements statements) (Token.scan (source ++ "\nend")) []) :
    parse (name ++ "(" ++ ", ".intercalate params ++ ") = do " ++ source ++ "\nend") =
      .ok (some (.statement (.assignment .assign (.heading name params) (.block statements)))) := by
  have hscan := (Token.scans_token Token.fits_keywordDo).scan_space (source ++ "\nend")
  have hblock : Reads (.expression (.block statements))
      (Token.scan ("do" ++ " " ++ (source ++ "\nend"))) [] := by
    rw [hscan]
    exact (Reads.primaryBlock rfl hbody).expression_of_primary ahead_nil
  have htext : name ++ "(" ++ ", ".intercalate params ++ ") = do " ++ source ++ "\nend" =
      name ++ "(" ++ ", ".intercalate params ++ ") = " ++ ("do" ++ " " ++ (source ++ "\nend")) := by
    apply String.toList_injective
    simp
  rw [htext]
  exact parse_definition hname hparams hblock

/-- What the keyword of a function makes of its text: the head is fixed, and the body is read off the
rest. -/
lemma reads_of_parse_function {source : String} {id : Option String} {names : List String}
    {body : Node} {g k : Bool} (hname : Token.IsName name)
    (hparams : ∀ param ∈ params, Token.IsName param)
    (h : parse ("function " ++ name ++ "(" ++ ", ".intercalate params ++ ") " ++ source) =
      .ok (some (.statement (.function id names body g) k))) :
    id = some name ∧ names = params ∧
      ∃ statements, body = .block statements ∧
        Reads (.statements statements) (Token.scan source) [] := by
  have hreads := Parser.reads_expression_of_parse h
  have hscan : Token.scan ("function " ++ name ++ "(" ++ ", ".intercalate params ++ ") " ++ source) =
      ⟨.keywordFunction, "function"⟩ ::
        ((Node.headTokens (some name) params).tail ++ Token.scan source) := by
    have hnames : ∀ other ∈ some name, Token.IsName other := by
      intro other hother
      rwa [← Option.some.inj hother]
    rw [Token.scan, String.toList_append]
    exact Node.scanChars_functionHead hnames hparams _
  have hsignature := Node.reads_signature (some name) params (Token.scan source)
  rw [hscan] at hreads
  cases hreads with
  | @expressionFunction _ _ middle _ _ _ statements _ hsignature' hbody =>
    obtain ⟨_, hgiven⟩ := Parser.given_of_reads hsignature 0
    obtain ⟨_, hgiven'⟩ := Parser.given_of_reads hsignature' 0
    rw [hgiven] at hgiven'
    cases hgiven'
    exact ⟨rfl, rfl, statements, rfl, hbody⟩
  | expressionAssignment hstart _ => exact absurd rfl (ahead_cons.mp hstart).2

end Definition

namespace Evaluation

/-- Makes a function and binds its name to it. -/
def definition (scope : ScopeId) (name : String) (params : List String) (body : Node) :
    Eval Value := do
  let closure ← makeClosure scope name params body
  define scope name (.closure closure)
  return .closure closure

lemma parameterNames_identifiers (params : List String) :
    parameterNames (params.map fun param => .identifier param) = .ok params := by
  induction params with
  | nil => rfl
  | cons param params ih =>
    rw [List.map_cons, parameterNames, ih]
    rfl

lemma evaluateWith_function (call : Value → List Value → Eval Value) (scope : ScopeId)
    (name : String) (params : List String) (body : Node) (g : Bool) :
    evaluateWith call scope (.function (some name) params body g) =
      definition scope name params body := by
  rw [evaluateWith]
  rfl

lemma evaluateWith_heading (call : Value → List Value → Eval Value) (scope : ScopeId)
    (name : String) (params : List String) (body : Node) :
    evaluateWith call scope (.assignment .assign (.heading name params) body) =
      definition scope name params body := by
  rw [Node.heading, evaluateWith, parameterNames_identifiers]
  rfl

end Evaluation

namespace Session

variable {source name : String} {params : List String} {body : Node} {g k : Bool}

lemma interpret_function
    (h : parse source = .ok (some (.statement (.function (some name) params body g) k)))
    (session : Session) :
    let closure : Closure := ⟨session.store.next, name, params, body, globals⟩
    interpret source session = .ok (some (.closure closure))
      ⟨session.store.fresh.2.define globals name (.closure closure), session.signals, 0⟩ := by
  rw [interpret_of_parse h, Evaluation.evaluate, Evaluation.evaluateWith,
    Evaluation.evaluateWith_function]
  rfl

lemma interpret_heading
    (h : parse source =
      .ok (some (.statement (.assignment .assign (.heading name params) body))))
    (session : Session) :
    let closure : Closure := ⟨session.store.next, name, params, body, globals⟩
    interpret source session = .ok (some (.closure closure))
      ⟨session.store.fresh.2.define globals name (.closure closure), session.signals, 0⟩ := by
  rw [interpret_of_parse h, Evaluation.evaluate, Evaluation.evaluateWith,
    Evaluation.evaluateWith_heading]
  rfl

lemma isLive_globals_afterAll (operations : List Operation) :
    (afterAll operations).store.isLive globals = true :=
  (scopesKept_foldl operations new).1 globals

/-- A definition binds its name in the outermost scope and touches no other name. -/
lemma get_definition {session : Session} (h : session.store.isLive globals = true) (name : String)
    (value : Value) {signals : List Signal} {depth : Nat} :
    let after : Session := ⟨session.store.fresh.2.define globals name value, signals, depth⟩
    after.get name = value ∧ ∀ other, other ≠ name → after.get other = session.get other := by
  intro after
  refine ⟨Store.get_define_self h name value, ?_⟩
  intro other hother
  exact Store.get_define_of_ne hother value globals

end Session

/-- If a definition with the keyword `function` is read as such, then so is the assignment of a block
with the same text to the pattern. In every session the two are interpreted alike. In every session
that a host can come to, they give the closure with the name, the parameters, the body and the
outermost scope; its name is bound to it there, and nothing else that is bound changes and no signal
is raised. -/
theorem function_form_is_pattern_form {name : String} (source : String) {params : List String}
    {id : Option String} {names : List String} {body : Node} {g k : Bool}
    (hname : Token.IsName name) (hparams : ∀ param ∈ params, Token.IsName param) :
    let function := "function " ++ name ++ "(" ++ ", ".intercalate params ++ ") " ++ source ++ "\nend"
    let definition := name ++ "(" ++ ", ".intercalate params ++ ") = do " ++ source ++ "\nend"
    parse function = .ok (some (.statement (.function id names body g) k)) →
      parse definition =
          .ok (some (.statement (.assignment .assign (.heading name params) body))) ∧
        (∀ session, Session.interpret function session = Session.interpret definition session) ∧
        ∀ operations, ∃ closure after,
          let session := Session.afterAll operations
          Session.interpret function session = .ok (some (.closure closure)) after ∧
            closure.name = name ∧ closure.params = params ∧ closure.body = body ∧
            closure.scope = Session.globals ∧
            after.get name = .closure closure ∧
            (∀ other, other ≠ name → after.get other = session.get other) ∧
            after.signals = session.signals := by
  intro function definition hfunction
  have htail : function =
      "function " ++ name ++ "(" ++ ", ".intercalate params ++ ") " ++ (source ++ "\nend") :=
    String.append_assoc
  obtain ⟨rfl, rfl, statements, rfl, hbody⟩ :=
    reads_of_parse_function hname hparams (htail ▸ hfunction)
  have hdefinition := parse_block_definition hname hparams hbody
  have hsame (session : Session) :
      Session.interpret function session = Session.interpret definition session := by
    rw [Session.interpret_function hfunction, Session.interpret_heading hdefinition]
  refine ⟨hdefinition, hsame, ?_⟩
  intro operations
  have hlive := Session.isLive_globals_afterAll operations
  have hfunction := Session.interpret_function hfunction (Session.afterAll operations)
  refine ⟨_, _, hfunction, rfl, rfl, rfl, rfl, ?_, ?_, rfl⟩
  · exact (Session.get_definition hlive name _).1
  · exact (Session.get_definition hlive name _).2

/-- The body has a block of its own, and a comment that holds a quote and the word that would end it. -/
theorem function_form_commented :
    let body : Node := .block [.block [.statement (.binary .add (.identifier "a") (.identifier "b"))]]
    parse "function f(a, b) do a + b end # \" end\nend" =
        .ok (some (.statement (.function (some "f") ["a", "b"] body))) ∧
      ∀ session, Session.interpret "function f(a, b) do a + b end # \" end\nend" session =
        Session.interpret "f(a, b) = do do a + b end # \" end\nend" session := by
  intro body
  have hname : ∀ param ∈ ["f", "a", "b"], Token.IsName param := by
    simp only [List.forall_mem_cons, List.not_mem_nil, false_implies, implies_true, and_true]
    exact ⟨⟨'f', [], rfl, by decide, by simp, by decide⟩, ⟨'a', [], rfl, by decide, by simp, by decide⟩,
      ⟨'b', [], rfl, by decide, by simp, by decide⟩⟩
  obtain ⟨hf, hparams⟩ := List.forall_mem_cons.mp hname
  have hparse : parse "function f(a, b) do a + b end # \" end\nend" =
      .ok (some (.statement (.function (some "f") ["a", "b"] body))) := by
    cbv
  exact ⟨hparse, (function_form_is_pattern_form "do a + b end # \" end" hf hparams hparse).2.1⟩

end ScriptConsole
