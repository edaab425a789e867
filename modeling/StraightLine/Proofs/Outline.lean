import Mathlib
import StraightLine.Proofs.Outcome
import StraightLine.Proofs.Pressure

/-!
# The code of statements, parentheses erased

A statement without its parentheses is an outline: a declaration, or a tree of operators that is
assigned or returned. The tree says which operator is applied to what, and so does the code. Here
the code of outlines is defined by recursion, with no temporary counter handed around: the
temporary of an operator has the number of operators in the code before it, all of it.

What the observer of a parse emits, reduction by reduction from a stack of operands, is the code of
the outlines of what was read. So parentheses that do not change the outline do not change the code,
and every instruction is there because of one token.

## Main definitions

* `OperatorTree`, `Outline` — expressions and statements without parentheses
* `OperatorTree.emit`, `Outline.code`, `outlineCode` — their code
* `Statement.outline` — the outline of a statement
* `Instr.sign` — the token that an instruction is there for

## Main results

* `Expression.translate_eq`, `Statement.listCode_eq` — trees are translated as their outlines are
* `Program.perm_sign` — the instructions are those of the tokens, in another order
* `Program.exists_analyse` — a program whose names and literals are known is analysed
* `exists_deliver_codeEmitter` — the observer that emits code can do without the other one
* `emitted_code_of_outlines` — all that is emitted for a token list
-/

namespace StraightLine

/-! ## Outlines and their code -/

/-- An expression without parentheses. -/
inductive OperatorTree where
  /-- The value of a name. -/
  | name (x : String)
  /-- A number, as spelled. -/
  | literal (text : String)
  /-- An operator and what it is applied to. -/
  | apply (op : ArithOp) (lhs rhs : OperatorTree)
  deriving DecidableEq, Repr

/-- A statement without parentheses. -/
inductive Outline where
  /-- A name is declared. -/
  | declare (x : String)
  /-- A name is assigned. -/
  | assign (x : String) (value : OperatorTree)
  /-- A value is returned. -/
  | ret (value : OperatorTree)
  deriving DecidableEq, Repr

/-- The temporary of an operator behind code has the number of operators in that code. -/
def nextTemp (before : List Instr) : Var :=
  tempVar (before.countP Instr.isArith)

/-- The code of a tree behind other code, and where the value is. -/
def OperatorTree.emit (before : List Instr) : OperatorTree → List Instr × Operand
  | name x => ([], .var (.named x))
  | literal text => ([], .imm (literalWord text))
  | apply op lhs rhs =>
    let (left, x) := lhs.emit before
    let (right, y) := rhs.emit (before ++ left)
    let temp := nextTemp (before ++ left ++ right)
    (left ++ right ++ [.arith op temp x y], .var temp)

/-- The code of a statement behind other code. -/
def Outline.code (before : List Instr) : Outline → List Instr
  | declare _ => []
  | assign x value => (value.emit before).1 ++ [.mov (.named x) (value.emit before).2]
  | ret value => (value.emit before).1 ++ [.ret (value.emit before).2]

/-- The code of statements behind other code. -/
def outlineCode (before : List Instr) : List Outline → List Instr
  | [] => []
  | o :: os => o.code before ++ outlineCode (before ++ o.code before) os

mutual

/-- An expression without its parentheses. -/
def Expression.tree : Expression → OperatorTree
  | .single t => t.tree
  | .more e sign t => .apply sign.op e.tree t.tree

/-- A term without its parentheses. -/
def Term.tree : Term → OperatorTree
  | .single f => f.tree
  | .times t f => .apply .mul t.tree f.tree

/-- A factor without its parentheses. -/
def Factor.tree : Factor → OperatorTree
  | .paren e => e.tree
  | .name x => .name x
  | .literal text => .literal text

end

/-- A statement without its parentheses. -/
def Statement.outline : Statement → Outline
  | .declare x => .declare x
  | .assign x e => .assign x e.tree
  | .ret e => .ret e.tree

/-! ## Trees are translated as their outlines are -/

/-- What a tree is translated to, behind code that has used the temporaries before. -/
def OperatorTree.translation (before : List Instr) (t : OperatorTree) : Translation where
  code := (t.emit before).1
  result := (t.emit before).2
  next := (before ++ (t.emit before).1).countP Instr.isArith

/-- Both sides of an operator are translated one behind the other. -/
theorem OperatorTree.translation_apply (before : List Instr) (op : ArithOp)
    (lhs rhs : OperatorTree) :
    (apply op lhs rhs).translation before =
      .arith op (lhs.translation before) (rhs.translation (before ++ (lhs.emit before).1)) := by
  simp only [translation, emit, Translation.arith, nextTemp, Translation.mk.injEq, true_and]
  simp [List.countP_append, Instr.isArith]
  omega

mutual

theorem Expression.translate_eq (before : List Instr) (e : Expression) :
    e.translate (before.countP Instr.isArith) = e.tree.translation before := by
  match e with
  | .single t => exact t.translate_eq before
  | .more e sign t =>
    rw [Expression.translate, e.translate_eq before, Expression.tree,
      OperatorTree.translation_apply]
    congr 1
    exact t.translate_eq (before ++ (e.tree.emit before).1)

theorem Term.translate_eq (before : List Instr) (t : Term) :
    t.translate (before.countP Instr.isArith) = t.tree.translation before := by
  match t with
  | .single f => exact f.translate_eq before
  | .times t f =>
    rw [Term.translate, t.translate_eq before, Term.tree, OperatorTree.translation_apply]
    congr 1
    exact f.translate_eq (before ++ (t.tree.emit before).1)

theorem Factor.translate_eq (before : List Instr) (f : Factor) :
    f.translate (before.countP Instr.isArith) = f.tree.translation before := by
  match f with
  | .paren e => exact e.translate_eq before
  | .name x => simp [Factor.translate, Factor.tree, OperatorTree.translation, OperatorTree.emit]
  | .literal text =>
    simp [Factor.translate, Factor.tree, OperatorTree.translation, OperatorTree.emit]

end

namespace Statement

theorem code_eq (before : List Instr) (s : Statement) :
    s.code (before.countP Instr.isArith) = s.outline.code before ∧
      s.next (before.countP Instr.isArith) =
        (before ++ s.outline.code before).countP Instr.isArith := by
  cases s with
  | declare x => simp [code, next, outline, Outline.code]
  | assign x e =>
    rw [code, next, e.translate_eq]
    simp [outline, Outline.code, OperatorTree.translation, Instr.isArith]
  | ret e =>
    rw [code, next, e.translate_eq]
    simp [outline, Outline.code, OperatorTree.translation, Instr.isArith]

/-- **Statements are translated as their outlines are.** -/
theorem listCode_eq (before : List Instr) (ss : List Statement) :
    listCode (before.countP Instr.isArith) ss = outlineCode before (ss.map outline) := by
  induction ss generalizing before with
  | nil => rfl
  | cons s ss ih =>
    obtain ⟨hcode, hnext⟩ := s.code_eq before
    rw [listCode, hcode, hnext, ih]
    rfl

end Statement

/-! ## Every instruction is there for a token -/

/-- The token of an operator. -/
def ArithOp.token : ArithOp → Token
  | add => .plus
  | sub => .minus
  | mul => .times

/-- The token that an instruction is there for. -/
def Instr.sign : Instr → Token
  | mov _ _ => .assign
  | arith op _ _ _ => op.token
  | ret _ => .keyword .ret

namespace Token

/-- Whether a token has an instruction of its own. -/
def isEmitting : Token → Bool
  | plus | minus | times | assign | keyword .ret => true
  | _ => false

/-- Whether a token is left of a statement when its parentheses are erased. -/
def isBare : Token → Bool
  | openParen | closeParen => false
  | _ => true

theorem isBare_of_isEmitting {t : Token} (h : t.isEmitting = true) : t.isBare = true := by
  cases t with
  | openParen => cases h
  | closeParen => cases h
  | _ => rfl

theorem isEmitting_of_isOperator {t : Token} (h : t.isOperator = true) : t.isEmitting = true := by
  cases t with
  | plus => rfl
  | minus => rfl
  | times => rfl
  | _ => cases h

@[simp] theorem isEmitting_arithOp (op : ArithOp) : op.token.isEmitting = true := by
  cases op <;> rfl

end Token

theorem Instr.isOperator_sign (i : Instr) : i.sign.isOperator = i.isArith := by
  cases i with
  | mov dest src => rfl
  | arith op dest lhs rhs => cases op <;> rfl
  | ret value => rfl

/-- The tokens of a tree. -/
def OperatorTree.tokens : OperatorTree → List Token
  | name x => [.ident x]
  | literal text => [.literal text]
  | apply op lhs rhs => lhs.tokens ++ op.token :: rhs.tokens

/-- The tokens of a statement without parentheses, with its semicolon. -/
def Outline.tokens : Outline → List Token
  | declare x => [.keyword .int, .ident x, .semicolon]
  | assign x value => .ident x :: .assign :: value.tokens ++ [.semicolon]
  | ret value => .keyword .ret :: value.tokens ++ [.semicolon]

mutual

theorem Expression.filter_tokens (e : Expression) :
    e.tokens.filter Token.isBare = e.tree.tokens := by
  match e with
  | .single t => exact t.filter_tokens
  | .more e sign t =>
    have hsign : sign.token.isBare = true ∧ sign.token = sign.op.token := by
      cases sign <;> exact ⟨rfl, rfl⟩
    simp [Expression.tokens, Expression.tree, OperatorTree.tokens, hsign.1, ← hsign.2,
      e.filter_tokens, t.filter_tokens]

theorem Term.filter_tokens (t : Term) : t.tokens.filter Token.isBare = t.tree.tokens := by
  match t with
  | .single f => exact f.filter_tokens
  | .times t f =>
    simp [Term.tokens, Term.tree, OperatorTree.tokens, List.filter_cons, Token.isBare,
      ArithOp.token, t.filter_tokens, f.filter_tokens]

theorem Factor.filter_tokens (f : Factor) : f.tokens.filter Token.isBare = f.tree.tokens := by
  match f with
  | .paren e => simp [Factor.tokens, Factor.tree, Token.isBare, e.filter_tokens]
  | .name x => rfl
  | .literal text => rfl

end

theorem Statement.filter_tokens (s : Statement) :
    (s.tokens ++ [Token.semicolon]).filter Token.isBare = s.outline.tokens := by
  cases s with
  | declare x => rfl
  | assign x e =>
    simp [tokens, outline, Outline.tokens, List.filter_cons, Token.isBare, e.filter_tokens]
  | ret e =>
    simp [tokens, outline, Outline.tokens, List.filter_cons, Token.isBare, e.filter_tokens]

/-- Without parentheses, the tokens of a program are those of its outlines. -/
theorem Program.filter_tokens (p : Program) :
    p.tokens.filter Token.isBare = (p.statements.map Statement.outline).flatMap Outline.tokens := by
  rw [tokens, Statement.listTokens, List.filter_flatMap, List.flatMap_map]
  exact List.flatMap_congr fun s _ => s.filter_tokens

/-- Behind any code, the operators of a tree have their instructions and there are no others. -/
theorem OperatorTree.perm_sign (before : List Instr) (t : OperatorTree) :
    ((t.emit before).1.map Instr.sign).Perm (t.tokens.filter Token.isEmitting) := by
  induction t generalizing before with
  | name x => rfl
  | literal text => rfl
  | apply op lhs rhs hlhs hrhs =>
    have hboth := (hlhs before).append (hrhs (before ++ (lhs.emit before).1))
    simp only [emit, tokens, List.map_append, List.map_cons, List.map_nil, Instr.sign,
      List.filter_append, List.filter_cons, Token.isEmitting_arithOp, if_true]
    refine (hboth.append_right [op.token]).trans ?_
    -- the instruction stands behind both sides, its token between them
    rw [List.append_assoc]
    exact (List.perm_append_singleton ..).append_left _

theorem Outline.perm_sign (before : List Instr) (o : Outline) :
    ((o.code before).map Instr.sign).Perm (o.tokens.filter Token.isEmitting) := by
  cases o with
  | declare x => rfl
  | assign x value =>
    simpa [code, tokens, List.filter_cons, Token.isEmitting, Instr.sign] using
      (List.perm_append_singleton ..).trans ((value.perm_sign before).cons _)
  | ret value =>
    simpa [code, tokens, List.filter_cons, Token.isEmitting, Instr.sign] using
      (List.perm_append_singleton ..).trans ((value.perm_sign before).cons _)

/-- **Every instruction is there for one token**, and every operator, equals sign and `return` has
its instruction. -/
theorem perm_sign_outlineCode (before : List Instr) (os : List Outline) :
    ((outlineCode before os).map Instr.sign).Perm
      ((os.flatMap Outline.tokens).filter Token.isEmitting) := by
  induction os generalizing before with
  | nil => rfl
  | cons o os ih =>
    rw [outlineCode, List.map_append, List.flatMap_cons, List.filter_append]
    exact (o.perm_sign before).append (ih _)

theorem Program.perm_sign (p : Program) :
    ((outlineCode [] (p.statements.map Statement.outline)).map Instr.sign).Perm
      (p.tokens.filter Token.isEmitting) := by
  have hbare : (p.tokens.filter Token.isBare).filter Token.isEmitting =
      p.tokens.filter Token.isEmitting := by
    rw [List.filter_filter]
    refine List.filter_congr fun t _ => ?_
    rw [Bool.and_eq_left_iff_imp]
    exact Token.isBare_of_isEmitting
  rw [← hbare, p.filter_tokens]
  exact perm_sign_outlineCode [] _

/-- The operators of the code are those among the tokens. -/
theorem Program.countP_isArith (p : Program) :
    (outlineCode [] (p.statements.map Statement.outline)).countP Instr.isArith =
      p.tokens.countP Token.isOperator := by
  have hsign : Token.isOperator ∘ Instr.sign = Instr.isArith := funext Instr.isOperator_sign
  have hemits : ∀ t ∈ p.tokens, (t.isOperator && t.isEmitting) = t.isOperator := by
    intro t _
    rw [Bool.and_eq_left_iff_imp]
    exact Token.isEmitting_of_isOperator
  rw [← hsign, ← List.countP_map, p.perm_sign.countP_eq, List.countP_filter]
  exact List.countP_congr fun t ht => by rw [hemits t ht]

/-- Programs with the same outlines have the same tokens but for parentheses. -/
theorem Program.mem_tokens_of_outline {p q : Program} {t : Token}
    (h : q.statements.map Statement.outline = p.statements.map Statement.outline)
    (ht : t.isBare = true) (hq : t ∈ q.tokens) : t ∈ p.tokens := by
  have hbare : t ∈ q.tokens.filter Token.isBare := List.mem_filter.mpr ⟨hq, ht⟩
  rw [q.filter_tokens, h, ← p.filter_tokens] at hbare
  exact (List.mem_filter.mp hbare).1

/-! ## What is emitted -/

theorem Program.code_eq (p : Program) :
    p.code = outlineCode [] (p.statements.map Statement.outline) :=
  Statement.listCode_eq [] p.statements

/-- A program is analysed if the table has its names and its literals denote words, and the code is
that of its outlines. -/
theorem Program.exists_analyse (p : Program) {symbols : SymbolTable}
    (hnames : ∀ x, .ident x ∈ p.tokens → symbols.contains x = true)
    (hharmless : Harmless (· ∈ p.tokens)) (rest : List Token) :
    ∃ a, analyse (p.tokens ++ .eof :: rest) symbols = (.ok (), a) ∧
      a.code.toList = outlineCode [] (p.statements.map Statement.outline) := by
  have houtcome := p.reads.outcomeFrom_append (ε := SemanticError) (.eof :: rest)
  rw [p.outcomeFrom_tokens] at houtcome
  have hfst := fst_analyse_of_stops p.stops hnames hharmless rest
  rw [← houtcome] at hfst
  have hrun := Prod.fst_eq_iff.mp hfst
  exact ⟨_, hrun, (p.code_of_analyse hrun).2.trans p.code_eq⟩

/-- A reduction asks the symbol table for names and for nothing else. -/
theorem Reduces.of_contains {symbols known : SymbolTable} {temp : Var} {p : Production}
    {cells dropped rest : List (Cell Operand)} {out : Cell Operand × Option Instr}
    (h : Reduces symbols temp p cells dropped out rest)
    (hknown : ∀ x, symbols.contains x = true → known.contains x = true) :
    Reduces known temp p cells dropped out rest := by
  cases h with
  | assignment src sign _ hx => exact .assignment src sign rest (hknown _ hx)
  | ret value word => exact .ret value word rest
  | arith op lhs rhs sign => exact .arith op lhs rhs sign rest
  | pass through value => exact .pass through value rest
  | paren value left right => exact .paren value left right rest
  | name _ hx => exact .name rest (hknown _ hx)
  | literal _ hvalue => exact .literal rest hvalue
  | bare hbare _ _ hlen => exact .bare hbare dropped rest hlen

/-- A step can be taken wherever the same cells lie and the same names are known. -/
theorem Emission.Step.run_codeEmitter {symbols : SymbolTable} {e : Event} {x x' : Emission}
    {b : Analysis} (h : Step symbols e x x') (hb : b.emission = x)
    (hnames : ∀ y, symbols.contains y = true → b.symbols.contains y = true) :
    ∃ b', (codeEmitter.notify e).run b = (.ok (), b') ∧ b'.emission = x' ∧
      b'.symbols = b.symbols := by
  subst hb
  cases h with
  | shift t => exact ⟨_, rfl, rfl, rfl⟩
  | reduce hreduces =>
    obtain ⟨b', hrun, hemission, hsymbols, -⟩ :=
      run_codeEmitter_reduce (hreduces.of_contains hnames).run_eq
    exact ⟨b', hrun, hemission, hsymbols⟩
  | accept _ c hlast =>
    have hlen : b.valueCells.length = 1 := congrArg List.length hlast
    have htake : AttributeStack.takeLast.run b.valueCells = (.ok (), []) := if_pos hlen
    exact ⟨_, Analysis.run_onValues_eq_ok.mpr ⟨[], htake, rfl⟩, rfl, rfl⟩

/-- **The observer that emits code can do without the observer of declarations.** What both accept
together, it accepts alone, and it emits the same. -/
theorem exists_deliver_codeEmitter {es : List Event} {a a' b : Analysis}
    (h : (analyst.deliver es).run a = (.ok (), a')) (hb : b.emission = a.emission)
    (hnames : ∀ y, a.symbols.contains y = true → b.symbols.contains y = true) :
    ∃ b', (codeEmitter.deliver es).run b = (.ok (), b') ∧ b'.emission = a'.emission := by
  induction es generalizing a b with
  | nil =>
    obtain ⟨-, rfl⟩ := Action.run_pure_eq_ok.mp h
    exact ⟨b, rfl, hb⟩
  | cons e es ih =>
    obtain ⟨⟨⟩, a₁, hnotify, hrest⟩ := Action.run_bind_eq_ok.mp h
    obtain ⟨⟨⟩, a₂, hlog, hboth⟩ := Action.run_bind_eq_ok.mp hnotify
    obtain ⟨⟨⟩, c, htypes, hcode⟩ := Action.run_bind_eq_ok.mp hboth
    obtain rfl := Action.run_modify_eq_ok.mp hlog
    have hkept : c.symbols.names = a.symbols.names := by
      have hbinder := names_typeBinder e { a with log := a.log.push (.event e) }
      rwa [htypes] at hbinder
    have hknown : ∀ y, c.symbols.contains y = true → b.symbols.contains y = true := by
      intro y hy
      refine hnames y ?_
      rwa [SymbolTable.contains_iff, ← hkept, ← SymbolTable.contains_iff]
    obtain ⟨hsymbols, hstep⟩ := (codeEmitter_ends e c).1 () a₁ hcode
    obtain ⟨b₁, hrun, hb₁, hsame⟩ :=
      hstep.run_codeEmitter (hb.trans (emission_of_typeBinder htypes).symm) hknown
    have hknown' : ∀ y, a₁.symbols.contains y = true → b₁.symbols.contains y = true := by
      rw [hsymbols, hsame]
      exact hknown
    obtain ⟨b', hb', hemission⟩ := ih hrest hb₁ hknown'
    exact ⟨b', (Action.run_bind_of_ok hrun _).trans hb', hemission⟩

/-- An operator writes the temporary with the number of operators in front of it. -/
theorem Emission.Orderly.dest_arith {x : Emission} (h : x.Orderly) (hfew : x.operators < 2 ^ 32)
    {front back : List Instr} {op : ArithOp} {dest : Var} {lhs rhs : Operand}
    (hsplit : x.code = front ++ .arith op dest lhs rhs :: back) :
    ∃ id : UInt32, dest = .temp id ∧ id.toNat = front.countP Instr.isArith := by
  have hk : (x.code.filter Instr.isArith)[front.countP Instr.isArith]? =
      some (.arith op dest lhs rhs) := by
    rw [hsplit, List.filter_append, List.countP_eq_length_filter,
      List.getElem?_append_right (Nat.le_refl _), Nat.sub_self]
    rfl
  obtain ⟨id, hid, hdest⟩ := h.dest?_operator hfew hk
  exact ⟨id, Option.some.inj hdest, hid⟩

/-- The tokens in front of the end token. -/
def beforeEnd (tokens : List Token) : List Token :=
  tokens.takeWhile (· ≠ .eof)

theorem Program.beforeEnd_tokens (p : Program) (rest : List Token) :
    beforeEnd (p.tokens ++ .eof :: rest) = p.tokens := by
  have hne : ∀ t ∈ p.tokens, decide (t ≠ .eof) = true := by
    intro t ht
    rw [decide_eq_true_eq]
    rintro rfl
    exact p.reads.eof_not_mem ht
  rw [beforeEnd, List.takeWhile_append_of_pos hne]
  simp

/-- What the parser accepts is a program in front of an end token. -/
theorem exists_program_of_accepted {tokens : List Token}
    (h : ((parse (Observer.idle : Observer Unit Empty) tokens).run ()).1 = .ok ()) :
    ∃ (p : Program) (rest : List Token), tokens = p.tokens ++ .eof :: rest := by
  have hok : (parse (Observer.idle : Observer Unit Empty) tokens).run () = (.ok (), ()) :=
    Prod.ext h rfl
  rw [parse, Reading.run_parseFrom_eq_ok] at hok
  exact Reading.consumed_start.exists_program_of_outcomeFrom hok.2

/-- **The code that is emitted.** Let the parser accept a list of tokens, and let those in front of
the end token have names of the symbol table, literals that denote words and fewer than `2 ^ 32`
operators. Then nothing is refused, whether code is emitted alone or in an analysis. The tokens are
those of a program, and the code is that of its outlines, so it is also emitted for any other
program with these outlines. The operators write temporaries that are numbered in order. And there
are as many instructions of each kind as there are tokens for them. -/
theorem emitted_code_of_outlines {tokens : List Token} {symbols : SymbolTable}
    (haccepted : ((parse (Observer.idle : Observer Unit Empty) tokens).run ()).1 = .ok ())
    (hnames : ∀ x, .ident x ∈ beforeEnd tokens → symbols.contains x = true)
    (hliterals : ∀ text, .literal text ∈ beforeEnd tokens →
      ∃ value, Decimal.toInt32? text = some value)
    (hoperators : (beforeEnd tokens).countP Token.isOperator < 2 ^ 32) :
    ∃ code : List Instr,
      (∃ a, (parse codeEmitter tokens).run { symbols } = (.ok (), a) ∧ a.code.toList = code) ∧
      (∃ a, analyse tokens symbols = (.ok (), a) ∧ a.code.toList = code) ∧
      (∃ p : Program, p.tokens = beforeEnd tokens) ∧
      (∀ p : Program, p.tokens = beforeEnd tokens →
        code = outlineCode [] (p.statements.map Statement.outline) ∧
        ∀ (q : Program) (rest : List Token),
          q.statements.map Statement.outline = p.statements.map Statement.outline →
          ∃ a, analyse (q.tokens ++ .eof :: rest) symbols = (.ok (), a) ∧ a.code.toList = code) ∧
      (∀ front op dest lhs rhs back, code = front ++ .arith op dest lhs rhs :: back →
        ∃ id : UInt32, dest = .temp id ∧ id.toNat = front.countP Instr.isArith) ∧
      ∀ t ∈ [Token.keyword .ret, .assign, .plus, .minus, .times],
        (code.map Instr.sign).count t = (beforeEnd tokens).count t := by
  obtain ⟨p, rest, rfl⟩ := exists_program_of_accepted haccepted
  rw [p.beforeEnd_tokens] at hnames hliterals hoperators ⊢
  obtain ⟨a, ha, hcode⟩ := p.exists_analyse hnames hliterals rest
  have hparse := ha
  rw [analyse, parse, Reading.run_parseFrom_eq_ok] at hparse
  obtain ⟨hdeliver, houtcome⟩ := hparse
  refine ⟨a.code.toList, ?alone, ⟨a, ha, rfl⟩, ⟨p, rfl⟩, fun p' hp' => ?outlines, ?numbered,
    ?counts⟩
  case alone =>
    obtain ⟨b, hb, hemission⟩ :=
      exists_deliver_codeEmitter (b := { symbols }) hdeliver rfl fun _ => id
    refine ⟨b, ?_, congrArg Emission.code hemission⟩
    rw [parse, Reading.run_parseFrom_eq_ok]
    exact ⟨hb, houtcome⟩
  case outlines =>
    -- the tokens may be read as another program, but they are analysed once
    rw [← hp'] at ha
    have hcode' : a.code.toList = outlineCode [] (p'.statements.map Statement.outline) := by
      rw [(p'.code_of_analyse ha).2, p'.code_eq]
    refine ⟨hcode', fun q rest' houtline => ?_⟩
    have hmem : ∀ t : Token, t.isBare = true → t ∈ q.tokens → t ∈ p.tokens := fun t ht hq =>
      hp' ▸ Program.mem_tokens_of_outline houtline ht hq
    obtain ⟨b, hb, hbcode⟩ := q.exists_analyse (fun x hx => hnames x (hmem _ rfl hx))
      (fun text htext => hliterals text (hmem _ rfl htext)) rest'
    exact ⟨b, hb, by rw [hbcode, houtline, hcode']⟩
  case numbered =>
    intro front op dest lhs rhs back hsplit
    have hstart : (Analysis.fresh symbols).emission.Orderly := Emission.orderly_start
    obtain ⟨horder, -⟩ := orderly_of_deliver hstart hdeliver
    refine horder.dest_arith ?_ hsplit
    have hfew : a.emission.operators = p.tokens.countP Token.isOperator := by
      rw [← p.countP_isArith, ← hcode]
      rfl
    rwa [hfew]
  case counts =>
    intro t ht
    have hemits : t.isEmitting = true := by
      revert t
      decide
    rw [hcode, p.perm_sign.count_eq, List.count_filter hemits]

/-- A sum with more parentheses than it needs. -/
def groupedSum : Program where
  statements := [.ret (.more (.single (.single (.paren (.single (.single (.name "a")))))) .plus
    (.single (.paren (.single (.single (.paren
      (.single (.times (.single (.name "b")) (.literal "3")))))))))]
  nonempty := List.cons_ne_nil _ _

/-- A symbol table for it. -/
def groupedSumTable : SymbolTable :=
  (SymbolTable.empty.add "b").add "a"

theorem emitted_code_of_groupedSum :
    beforeEnd (groupedSum.tokens ++ [.eof, .ident "z"]) = [.keyword .ret, .openParen, .ident "a",
      .closeParen, .plus, .openParen, .openParen, .ident "b", .times, .literal "3", .closeParen,
      .closeParen, .semicolon] ∧
    ((parse (Observer.idle : Observer Unit Empty)
      (groupedSum.tokens ++ [.eof, .ident "z"])).run ()).1 = .ok () ∧
    ∃ a, analyse (groupedSum.tokens ++ [.eof, .ident "z"]) groupedSumTable = (.ok (), a) ∧
      a.code.toList = [.arith .mul (.temp 0) (.var (.named "b")) (.imm 3),
        .arith .add (.temp 1) (.var (.named "a")) (.var (.temp 0)), .ret (.var (.temp 1))] := by
  have hbefore : beforeEnd (groupedSum.tokens ++ [.eof, .ident "z"]) = [.keyword .ret, .openParen,
      .ident "a", .closeParen, .plus, .openParen, .openParen, .ident "b", .times, .literal "3",
      .closeParen, .closeParen, .semicolon] := by decide
  have haccepted : ((parse (Observer.idle : Observer Unit Empty)
      (groupedSum.tokens ++ [.eof, .ident "z"])).run ()).1 = .ok () := by decide +kernel
  have hnames : ∀ x, .ident x ∈ beforeEnd (groupedSum.tokens ++ [.eof, .ident "z"]) →
      groupedSumTable.contains x = true := by
    intro x hx
    obtain rfl | rfl : x = "a" ∨ x = "b" := by simpa [hbefore] using hx
    · decide +kernel
    · decide +kernel
  have hliterals : ∀ text, .literal text ∈ beforeEnd (groupedSum.tokens ++ [.eof, .ident "z"]) →
      ∃ value, Decimal.toInt32? text = some value := by
    intro text htext
    obtain rfl : text = "3" := by simpa [hbefore] using htext
    exact ⟨3, by decide +kernel⟩
  obtain ⟨code, -, ⟨a, ha, hcode⟩, -, houtline, -, -⟩ :=
    emitted_code_of_outlines haccepted hnames hliterals (by rw [hbefore]; decide)
  refine ⟨hbefore, haccepted, a, ha, ?_⟩
  rw [hcode, (houtline groupedSum (groupedSum.beforeEnd_tokens _).symm).1]
  decide +kernel

end StraightLine
