import StraightLine.Grammar.Parse

/-!
# Syntax trees

The parser builds no tree. Its specification needs one: a program is read correctly if the events
are those of its tree, and it means what its tree means. There are two kinds of trees here.

`Derivation` is the grammar's own notion, generic in the table of productions: a node is a
production with one subtree for each symbol of its body. Nothing about programs is built in, so
this is the notion in which statements about the grammar are made.

`Expression`, `Term`, `Factor`, `Statement` and `Program` are one type for each syntactic category.
Here the productions are constructors, and recursion over a tree is recursion over the language.
This is the notion in which meanings and translations are defined.

The two have the same tokens and the same events: `Program.exists_derivation` and
`Derivation.exists_program` go from one to the other, and everything else is proved in whichever is
more convenient.

## Main definitions

* `Derivation`, `Forest` — derivation trees of the grammar, with `yield` and `postorder`
* `Expression`, `Term`, `Factor`, `Statement`, `Program` — syntax trees, with `tokens` and `events`

## Main results

* `Program.exists_derivation`, `Derivation.exists_program` — the two notions agree
-/

namespace StraightLine

/-! ## Derivation trees -/

mutual

/-- A derivation tree of a symbol: a token of the right kind, or a production with a tree for each
symbol of its body. -/
inductive Derivation : GrammarSymbol → Type where
  /-- A token, whatever its text. -/
  | leaf (t : Token) : Derivation (.terminal t.kind)
  /-- A production applied. -/
  | node (p : Production) (children : Forest p.body) : Derivation (.nonterminal p.head)

/-- Derivation trees of symbols in a row. -/
inductive Forest : List GrammarSymbol → Type where
  /-- No trees for no symbols. -/
  | nil : Forest []
  /-- A tree in front of others. -/
  | cons {s : GrammarSymbol} {ss : List GrammarSymbol} (first : Derivation s)
      (others : Forest ss) : Forest (s :: ss)

end

mutual

/-- The tokens at the leaves, from left to right. -/
def Derivation.yield {s : GrammarSymbol} : Derivation s → List Token
  | .leaf t => [t]
  | .node _ children => children.yield

/-- The tokens at the leaves, from left to right. -/
def Forest.yield {ss : List GrammarSymbol} : Forest ss → List Token
  | .nil => []
  | .cons first others => first.yield ++ others.yield

end

mutual

/-- The bottom-up parse that a tree stands for: subtrees from left to right, each leaf shifted, each
production reduced behind its subtrees. -/
def Derivation.postorder {s : GrammarSymbol} : Derivation s → List Event
  | .leaf t => [.shift t]
  | .node p children => children.postorder ++ [.reduce p]

/-- The events of trees in a row. -/
def Forest.postorder {ss : List GrammarSymbol} : Forest ss → List Event
  | .nil => []
  | .cons first others => first.postorder ++ others.postorder

end

/-! ## Syntax trees -/

/-- The signs between the terms of an expression. -/
inductive Sign where
  /-- A plus sign. -/
  | plus
  /-- A minus sign. -/
  | minus
  deriving DecidableEq, Repr

namespace Sign

/-- The token of a sign. -/
def token : Sign → Token
  | plus => .plus
  | minus => .minus

/-- What the term behind a sign is to its expression. -/
def role : Sign → TermRole
  | plus => .addend
  | minus => .subtrahend

end Sign

mutual

/-- Sums and differences, from the left. -/
inductive Expression where
  /-- One term. -/
  | single (t : Term)
  /-- One more term. -/
  | more (e : Expression) (sign : Sign) (t : Term)

/-- Products, from the left. -/
inductive Term where
  /-- One factor. -/
  | single (f : Factor)
  /-- One more factor. -/
  | times (t : Term) (f : Factor)

/-- Operands. -/
inductive Factor where
  /-- An expression in parentheses. -/
  | paren (e : Expression)
  /-- A name. -/
  | name (x : String)
  /-- A literal, as spelled. -/
  | literal (text : String)

end

/-- A statement without its semicolon. -/
inductive Statement where
  /-- A name is declared. -/
  | declare (x : String)
  /-- A name is assigned. -/
  | assign (x : String) (e : Expression)
  /-- A value is returned. -/
  | ret (e : Expression)

/-- One or more statements. -/
structure Program where
  /-- The statements. -/
  statements : List Statement
  /-- There is one. -/
  nonempty : statements ≠ []

mutual

/-- The tokens of an expression. -/
def Expression.tokens : Expression → List Token
  | .single t => t.tokens
  | .more e sign t => e.tokens ++ sign.token :: t.tokens

/-- The tokens of a term. -/
def Term.tokens : Term → List Token
  | .single f => f.tokens
  | .times t f => t.tokens ++ .times :: f.tokens

/-- The tokens of a factor. -/
def Factor.tokens : Factor → List Token
  | .paren e => .openParen :: e.tokens ++ [.closeParen]
  | .name x => [.ident x]
  | .literal text => [.literal text]

end

mutual

/-- The events of an expression. -/
def Expression.events : Expression → List Event
  | .single t => t.events ++ [.reduce .expression]
  | .more e sign t =>
    e.events ++ .shift sign.token :: t.events ++ [.reduce sign.role.production]

/-- The events of a term. -/
def Term.events : Term → List Event
  | .single f => f.events ++ [.reduce .term]
  | .times t f => t.events ++ .shift .times :: f.events ++ [.reduce .mul]

/-- The events of a factor. -/
def Factor.events : Factor → List Event
  | .paren e => .shift .openParen :: e.events ++ [.shift .closeParen, .reduce .paren]
  | .name x => [.shift (.ident x), .reduce .name]
  | .literal text => [.shift (.literal text), .reduce .literal]

end

namespace Statement

/-- The tokens of a statement. -/
def tokens : Statement → List Token
  | declare x => [.keyword .int, .ident x]
  | assign x e => .ident x :: .assign :: e.tokens
  | ret e => .keyword .ret :: e.tokens

/-- The events of a statement. -/
def events : Statement → List Event
  | declare x =>
    [.shift (.keyword .int), .reduce .declarator, .shift (.ident x), .reduce .declaration]
  | assign x e => .shift (.ident x) :: .shift .assign :: e.events ++ [.reduce .assignment]
  | ret e => .shift (.keyword .ret) :: e.events ++ [.reduce .ret]

/-- The tokens of statements, each with its semicolon. -/
def listTokens (ss : List Statement) : List Token :=
  ss.flatMap fun s => s.tokens ++ [.semicolon]

/-- The events of statements, each with its semicolon, before the list is reduced. -/
def listEvents (ss : List Statement) : List Event :=
  ss.flatMap fun s => s.events ++ [.shift .semicolon]

end Statement

namespace Program

/-- The tokens of a program. -/
def tokens (p : Program) : List Token :=
  Statement.listTokens p.statements

/-- The events of a program. The list of statements is reduced from its end. -/
def events (p : Program) : List Event :=
  Statement.listEvents p.statements ++ .reduce .lastStatement ::
    List.replicate (p.statements.length - 1) (.reduce .statementList) ++ [.reduce .program]

end Program

/-! ## From syntax trees to derivations -/

mutual

/-- The derivation of an expression. -/
def Expression.derivation : Expression → Derivation (.nonterminal .expression)
  | .single t => .node .expression (.cons t.derivation .nil)
  | .more e .plus t =>
    .node .add (.cons e.derivation (.cons (.leaf .plus) (.cons t.derivation .nil)))
  | .more e .minus t =>
    .node .sub (.cons e.derivation (.cons (.leaf .minus) (.cons t.derivation .nil)))

/-- The derivation of a term. -/
def Term.derivation : Term → Derivation (.nonterminal .term)
  | .single f => .node .term (.cons f.derivation .nil)
  | .times t f => .node .mul (.cons t.derivation (.cons (.leaf .times) (.cons f.derivation .nil)))

/-- The derivation of a factor. -/
def Factor.derivation : Factor → Derivation (.nonterminal .factor)
  | .paren e =>
    .node .paren (.cons (.leaf .openParen) (.cons e.derivation (.cons (.leaf .closeParen) .nil)))
  | .name x => .node .name (.cons (.leaf (.ident x)) .nil)
  | .literal text => .node .literal (.cons (.leaf (.literal text)) .nil)

end

/-- The derivation of a statement. -/
def Statement.derivation : Statement → Derivation (.nonterminal .statement)
  | .declare x =>
    .node .declaration (.cons (.node .declarator (.cons (.leaf (.keyword .int)) .nil))
      (.cons (.leaf (.ident x)) .nil))
  | .assign x e =>
    .node .assignment (.cons (.leaf (.ident x)) (.cons (.leaf .assign) (.cons e.derivation .nil)))
  | .ret e => .node .ret (.cons (.leaf (.keyword .ret)) (.cons e.derivation .nil))

/-- The derivation of a list of statements, given its first. -/
def Statement.listDerivation (s : Statement) :
    List Statement → Derivation (.nonterminal .statements)
  | [] => .node .lastStatement (.cons s.derivation (.cons (.leaf .semicolon) .nil))
  | s' :: ss =>
    .node .statementList
      (.cons s.derivation (.cons (.leaf .semicolon) (.cons (s'.listDerivation ss) .nil)))

/-- A tree has the given tokens and events. -/
def Derivation.Spells {s : GrammarSymbol} (d : Derivation s) (ts : List Token)
    (es : List Event) : Prop :=
  d.yield = ts ∧ d.postorder = es

namespace Derivation.Spells

variable {s : GrammarSymbol} {ts : List Token} {es : List Event}

/-- A node spells what its subtrees spell, and its production behind them. -/
theorem node {p : Production} {children : Forest p.body} (hts : children.yield = ts)
    (hes : children.postorder = es) :
    (Derivation.node p children).Spells ts (es ++ [.reduce p]) :=
  ⟨hts, by rw [postorder, hes]⟩

end Derivation.Spells

mutual

theorem Expression.spells_derivation (e : Expression) :
    e.derivation.Spells e.tokens e.events := by
  match e with
  | .single t =>
    obtain ⟨hts, hes⟩ := t.spells_derivation
    refine Derivation.Spells.node ?_ ?_
    · simp only [Forest.yield, hts, List.append_nil, Expression.tokens]
    · simp only [Forest.postorder, hes, List.append_nil]
  | .more e sign t =>
    obtain ⟨hets, hees⟩ := e.spells_derivation
    obtain ⟨htts, htes⟩ := t.spells_derivation
    cases sign <;> refine Derivation.Spells.node ?_ ?_
    all_goals
      simp only [Forest.yield, Forest.postorder, Derivation.yield, Derivation.postorder, hets, hees,
        htts, htes, List.append_nil, Expression.tokens]
      rfl

theorem Term.spells_derivation (t : Term) : t.derivation.Spells t.tokens t.events := by
  match t with
  | .single f =>
    obtain ⟨hts, hes⟩ := f.spells_derivation
    refine Derivation.Spells.node ?_ ?_
    · simp only [Forest.yield, hts, List.append_nil, Term.tokens]
    · simp only [Forest.postorder, hes, List.append_nil]
  | .times t f =>
    obtain ⟨htts, htes⟩ := t.spells_derivation
    obtain ⟨hfts, hfes⟩ := f.spells_derivation
    refine Derivation.Spells.node ?_ ?_
    · simp only [Forest.yield, Derivation.yield, htts, hfts, List.append_nil, Term.tokens]
      rfl
    · simp only [Forest.postorder, Derivation.postorder, htes, hfes, List.append_nil]
      rfl

theorem Factor.spells_derivation (f : Factor) : f.derivation.Spells f.tokens f.events := by
  match f with
  | .paren e =>
    obtain ⟨hts, hes⟩ := e.spells_derivation
    refine ⟨?_, ?_⟩
    · show [Token.openParen] ++ (e.derivation.yield ++ ([.closeParen] ++ [])) = _
      rw [hts]
      rfl
    · show ([Event.shift .openParen] ++ (e.derivation.postorder ++ ([.shift .closeParen] ++ [])))
        ++ [.reduce .paren] = _
      rw [hes]
      simp [Factor.events]
  | .name x => exact ⟨rfl, rfl⟩
  | .literal text => exact ⟨rfl, rfl⟩

end

theorem Statement.spells_derivation (s : Statement) : s.derivation.Spells s.tokens s.events := by
  cases s with
  | declare x => exact ⟨rfl, rfl⟩
  | assign x e =>
    obtain ⟨hts, hes⟩ := e.spells_derivation
    refine Derivation.Spells.node ?_ ?_
    · simp only [Forest.yield, Derivation.yield, hts, List.append_nil]
      rfl
    · simp only [Forest.postorder, Derivation.postorder, hes, List.append_nil]
      rfl
  | ret e =>
    obtain ⟨hts, hes⟩ := e.spells_derivation
    refine Derivation.Spells.node ?_ ?_
    · simp only [Forest.yield, Derivation.yield, hts, List.append_nil]
      rfl
    · simp only [Forest.postorder, Derivation.postorder, hes, List.append_nil]
      rfl

/-- A list of statements is reduced from its end, once for each statement. -/
theorem Statement.spells_listDerivation (s : Statement) (ss : List Statement) :
    (s.listDerivation ss).Spells (listTokens (s :: ss))
      (listEvents (s :: ss) ++ .reduce .lastStatement ::
        List.replicate ss.length (.reduce .statementList)) := by
  obtain ⟨hts, hes⟩ := s.spells_derivation
  induction ss generalizing s with
  | nil =>
    refine ⟨?_, ?_⟩
    · show s.derivation.yield ++ ([Token.semicolon] ++ []) = _
      rw [hts]
      simp [listTokens]
    · show (s.derivation.postorder ++ ([Event.shift .semicolon] ++ [])) ++
        [.reduce .lastStatement] = _
      rw [hes]
      simp [listEvents]
  | cons s' ss ih =>
    obtain ⟨hts', hes'⟩ := ih s' s'.spells_derivation.1 s'.spells_derivation.2
    refine ⟨?_, ?_⟩
    · show s.derivation.yield ++ ([Token.semicolon] ++ ((s'.listDerivation ss).yield ++ [])) = _
      rw [hts, hts']
      simp [listTokens]
    · show (s.derivation.postorder ++ ([Event.shift .semicolon] ++
        ((s'.listDerivation ss).postorder ++ []))) ++ [.reduce .statementList] = _
      rw [hes, hes', List.length_cons, List.replicate_succ']
      simp [listEvents]

/-- Every program has a derivation. -/
theorem Program.exists_derivation (p : Program) :
    ∃ d : Derivation (.nonterminal .program), d.Spells p.tokens p.events := by
  obtain ⟨_ | ⟨s, ss⟩, hne⟩ := p
  · exact absurd rfl hne
  · obtain ⟨hts, hes⟩ := s.spells_listDerivation ss
    refine ⟨.node .program (.cons (s.listDerivation ss) .nil), ?_, ?_⟩
    · show (s.listDerivation ss).yield ++ [] = _
      rw [hts, List.append_nil]
      rfl
    · show ((s.listDerivation ss).postorder ++ []) ++ [.reduce .program] = _
      rw [hes, List.append_nil]
      rfl

/-! ## From derivations to syntax trees -/

/-- A token without text is told by its kind. -/
theorem Token.eq_of_kind_eq {t u : Token} (h : t.kind = u.kind) (hu : u.text? = none) : t = u := by
  cases t <;> cases u <;> simp_all [Token.kind, Token.text?]

theorem Token.eq_ident_of_kind {t : Token} (h : t.kind = .ident) : ∃ x, t = .ident x := by
  cases t <;> simp_all [Token.kind]

theorem Token.eq_literal_of_kind {t : Token} (h : t.kind = .literal) :
    ∃ text, t = .literal text := by
  cases t <;> simp_all [Token.kind]

/-- Tokens and events are those of a syntax tree of the symbol's category. -/
def IsPhrase : GrammarSymbol → List Token → List Event → Prop
  | .terminal k, ts, es => ∃ t : Token, t.kind = k ∧ ts = [t] ∧ es = [.shift t]
  | .nonterminal .program, ts, es => ∃ p : Program, ts = p.tokens ∧ es = p.events
  | .nonterminal .statements, ts, es => ∃ s ss, ts = Statement.listTokens (s :: ss) ∧
      es = Statement.listEvents (s :: ss) ++ .reduce .lastStatement ::
        List.replicate ss.length (.reduce .statementList)
  | .nonterminal .statement, ts, es => ∃ s : Statement, ts = s.tokens ∧ es = s.events
  | .nonterminal .declarator, ts, es =>
    ts = [.keyword .int] ∧ es = [.shift (.keyword .int), .reduce .declarator]
  | .nonterminal .expression, ts, es => ∃ e : Expression, ts = e.tokens ∧ es = e.events
  | .nonterminal .term, ts, es => ∃ t : Term, ts = t.tokens ∧ es = t.events
  | .nonterminal .factor, ts, es => ∃ f : Factor, ts = f.tokens ∧ es = f.events

/-- Tokens and events are those of syntax trees in a row. -/
def ArePhrases : List GrammarSymbol → List Token → List Event → Prop
  | [], ts, es => ts = [] ∧ es = []
  | s :: ss, ts, es => ∃ ts₁ ts₂ es₁ es₂, IsPhrase s ts₁ es₁ ∧ ArePhrases ss ts₂ es₂ ∧
      ts = ts₁ ++ ts₂ ∧ es = es₁ ++ es₂

theorem arePhrases_one {s : GrammarSymbol} {ts : List Token} {es : List Event} :
    ArePhrases [s] ts es ↔ IsPhrase s ts es := by
  constructor
  · rintro ⟨ts₁, _, es₁, _, h, ⟨rfl, rfl⟩, rfl, rfl⟩
    simpa using h
  · intro h
    exact ⟨ts, [], es, [], h, ⟨rfl, rfl⟩, by simp, by simp⟩

/-- A token without text in a row of phrases. -/
theorem arePhrases_token {u : Token} (hu : u.text? = none) {ss : List GrammarSymbol}
    {ts : List Token} {es : List Event} (h : ArePhrases (.terminal u.kind :: ss) ts es) :
    ∃ ts' es', ArePhrases ss ts' es' ∧ ts = u :: ts' ∧ es = .shift u :: es' := by
  obtain ⟨_, ts', _, es', ⟨t, hkind, rfl, rfl⟩, hss, rfl, rfl⟩ := h
  obtain rfl := Token.eq_of_kind_eq hkind hu
  exact ⟨ts', es', hss, rfl, rfl⟩

/-- A name in a row of phrases. -/
theorem arePhrases_ident {ss : List GrammarSymbol} {ts : List Token} {es : List Event}
    (h : ArePhrases (.terminal .ident :: ss) ts es) :
    ∃ x ts' es', ArePhrases ss ts' es' ∧ ts = .ident x :: ts' ∧
      es = .shift (.ident x) :: es' := by
  obtain ⟨_, ts', _, es', ⟨t, hkind, rfl, rfl⟩, hss, rfl, rfl⟩ := h
  obtain ⟨x, rfl⟩ := Token.eq_ident_of_kind hkind
  exact ⟨x, ts', es', hss, rfl, rfl⟩

/-- **Reducing phrases gives a phrase.** One constructor for each production. -/
theorem isPhrase_reduce {p : Production} {ts : List Token} {es : List Event}
    (h : ArePhrases p.body ts es) : IsPhrase (.nonterminal p.head) ts (es ++ [.reduce p]) := by
  cases p with
  | program =>
    obtain ⟨s, ss, rfl, rfl⟩ := arePhrases_one.mp h
    exact ⟨⟨s :: ss, by simp⟩, rfl, rfl⟩
  | statementList =>
    obtain ⟨_, _, _, _, ⟨s, rfl, rfl⟩, htail, rfl, rfl⟩ := h
    obtain ⟨ts', es', htail', rfl, rfl⟩ := arePhrases_token (u := .semicolon) rfl htail
    obtain ⟨s', ss, rfl, rfl⟩ := arePhrases_one.mp htail'
    refine ⟨s, s' :: ss, by simp [Statement.listTokens], ?_⟩
    rw [List.length_cons, List.replicate_succ']
    simp [Statement.listEvents]
  | lastStatement =>
    obtain ⟨_, _, _, _, ⟨s, rfl, rfl⟩, htail, rfl, rfl⟩ := h
    obtain ⟨ts', es', ⟨rfl, rfl⟩, rfl, rfl⟩ := arePhrases_token (u := .semicolon) rfl htail
    exact ⟨s, [], by simp [Statement.listTokens], by simp [Statement.listEvents]⟩
  | declaration =>
    obtain ⟨_, _, _, _, ⟨rfl, rfl⟩, htail, rfl, rfl⟩ := h
    obtain ⟨x, _, _, ⟨rfl, rfl⟩, rfl, rfl⟩ := arePhrases_ident htail
    exact ⟨.declare x, rfl, rfl⟩
  | declarator =>
    obtain ⟨_, _, ⟨rfl, rfl⟩, rfl, rfl⟩ := arePhrases_token (u := .keyword .int) rfl h
    exact ⟨rfl, rfl⟩
  | assignment =>
    obtain ⟨x, _, _, htail, rfl, rfl⟩ := arePhrases_ident h
    obtain ⟨_, _, htail', rfl, rfl⟩ := arePhrases_token (u := .assign) rfl htail
    obtain ⟨e, rfl, rfl⟩ := arePhrases_one.mp htail'
    exact ⟨.assign x e, rfl, rfl⟩
  | ret =>
    obtain ⟨_, _, htail, rfl, rfl⟩ := arePhrases_token (u := .keyword .ret) rfl h
    obtain ⟨e, rfl, rfl⟩ := arePhrases_one.mp htail
    exact ⟨.ret e, rfl, rfl⟩
  | add =>
    obtain ⟨_, _, _, _, ⟨e, rfl, rfl⟩, htail, rfl, rfl⟩ := h
    obtain ⟨_, _, htail', rfl, rfl⟩ := arePhrases_token (u := .plus) rfl htail
    obtain ⟨t, rfl, rfl⟩ := arePhrases_one.mp htail'
    exact ⟨.more e .plus t, rfl, rfl⟩
  | sub =>
    obtain ⟨_, _, _, _, ⟨e, rfl, rfl⟩, htail, rfl, rfl⟩ := h
    obtain ⟨_, _, htail', rfl, rfl⟩ := arePhrases_token (u := .minus) rfl htail
    obtain ⟨t, rfl, rfl⟩ := arePhrases_one.mp htail'
    exact ⟨.more e .minus t, rfl, rfl⟩
  | expression =>
    obtain ⟨t, rfl, rfl⟩ := arePhrases_one.mp h
    exact ⟨.single t, rfl, rfl⟩
  | mul =>
    obtain ⟨_, _, _, _, ⟨t, rfl, rfl⟩, htail, rfl, rfl⟩ := h
    obtain ⟨_, _, htail', rfl, rfl⟩ := arePhrases_token (u := .times) rfl htail
    obtain ⟨f, rfl, rfl⟩ := arePhrases_one.mp htail'
    exact ⟨.times t f, rfl, rfl⟩
  | term =>
    obtain ⟨f, rfl, rfl⟩ := arePhrases_one.mp h
    exact ⟨.single f, rfl, rfl⟩
  | paren =>
    obtain ⟨_, _, htail, rfl, rfl⟩ := arePhrases_token (u := .openParen) rfl h
    obtain ⟨_, _, _, _, ⟨e, rfl, rfl⟩, htail', rfl, rfl⟩ := htail
    obtain ⟨_, _, ⟨rfl, rfl⟩, rfl, rfl⟩ := arePhrases_token (u := .closeParen) rfl htail'
    exact ⟨.paren e, rfl, by simp [Factor.events]⟩
  | name =>
    obtain ⟨x, _, _, ⟨rfl, rfl⟩, rfl, rfl⟩ := arePhrases_ident h
    exact ⟨.name x, rfl, rfl⟩
  | literal =>
    obtain ⟨t, hkind, rfl, rfl⟩ := arePhrases_one.mp h
    obtain ⟨text, rfl⟩ := Token.eq_literal_of_kind hkind
    exact ⟨.literal text, rfl, rfl⟩

mutual

theorem Derivation.isPhrase {s : GrammarSymbol} (d : Derivation s) :
    IsPhrase s d.yield d.postorder := by
  match d with
  | .leaf t => exact ⟨t, rfl, rfl, rfl⟩
  | .node p children => exact isPhrase_reduce children.arePhrases

theorem Forest.arePhrases {ss : List GrammarSymbol} (ds : Forest ss) :
    ArePhrases ss ds.yield ds.postorder := by
  match ds with
  | .nil => exact ⟨rfl, rfl⟩
  | .cons first others =>
    exact ⟨_, _, _, _, first.isPhrase, others.arePhrases, rfl, rfl⟩

end

/-- Every derivation of a program is that of a syntax tree. -/
theorem Derivation.exists_program (d : Derivation (.nonterminal .program)) :
    ∃ p : Program, d.Spells p.tokens p.events :=
  d.isPhrase

end StraightLine
