import Mathlib
import StraightLine.Compilation
import StraightLine.Proofs.Reading

/-!
# The code of a program

The observer that emits code sees events, not trees. Here the code of a tree is defined by recursion
on the tree, and the two are shown to agree: an analysis that was refused nothing has emitted the
code of the program that was read.

An expression is translated with temporaries from a given number on. What comes out is the code, the
operand that holds the value behind it, and the number of the next temporary. Numbers are natural
numbers here and words in the code, so two temporaries of one program are sure to be different only
while there are at most `2 ^ 32` operators; nothing else in this module depends on that.

## Main definitions

* `Translation` — code, operand and next temporary
* `Expression.translate`, `Statement.translate`, `Program.code` — the code of a tree
* `Expression.Fits` — every literal denotes a word
* `Emission` — the part of an analysis that belongs to the code

## Main results

* `Expression.emission_of_deliver` — an expression that is not refused is translated
* `Program.code_of_analyse` — so is a program
-/

namespace StraightLine

/-! ## Translating trees -/

/-- The temporary with a given number. -/
def tempVar (n : Nat) : Var :=
  .temp (UInt32.ofNat n)

/-- Temporaries below the bound are told apart by their numbers. -/
theorem tempVar_inj {m n : Nat} (hm : m < 2 ^ 32) (hn : n < 2 ^ 32) :
    tempVar m = tempVar n ↔ m = n := by
  constructor
  · intro h
    have hword := congrArg UInt32.toNat (Var.temp.inj h)
    rwa [UInt32.toNat_ofNat_of_lt' hm, UInt32.toNat_ofNat_of_lt' hn] at hword
  · rintro rfl
    rfl

/-- What an expression becomes. -/
structure Translation where
  /-- The code that computes the value. -/
  code : List Instr
  /-- Where the value is behind the code. -/
  result : Operand
  /-- The number of the next temporary. -/
  next : Nat

/-- An operator is applied behind the code of its operands, and its value is in a temporary. -/
def Translation.arith (op : ArithOp) (lhs rhs : Translation) : Translation where
  code := lhs.code ++ rhs.code ++ [.arith op (tempVar rhs.next) lhs.result rhs.result]
  result := .var (tempVar rhs.next)
  next := rhs.next + 1

@[simp] theorem Translation.next_arith (op : ArithOp) (lhs rhs : Translation) :
    (arith op lhs rhs).next = rhs.next + 1 :=
  rfl

/-- The operator of a sign. -/
def Sign.op : Sign → ArithOp
  | plus => .add
  | minus => .sub

/-- The word that a literal denotes, if it denotes one. -/
def literalWord (text : String) : Int32 :=
  (Decimal.toInt32? text).getD 0

mutual

/-- Translate an expression with temporaries from `n` on. -/
def Expression.translate (n : Nat) : Expression → Translation
  | .single t => t.translate n
  | .more e sign t => .arith sign.op (e.translate n) (t.translate (e.translate n).next)

/-- Translate a term with temporaries from `n` on. -/
def Term.translate (n : Nat) : Term → Translation
  | .single f => f.translate n
  | .times t f => .arith .mul (t.translate n) (f.translate (t.translate n).next)

/-- Translate a factor with temporaries from `n` on. -/
def Factor.translate (n : Nat) : Factor → Translation
  | .paren e => e.translate n
  | .name x => ⟨[], .var (.named x), n⟩
  | .literal text => ⟨[], .imm (literalWord text), n⟩

end

namespace Statement

/-- The number of the next temporary behind a statement. -/
def next (n : Nat) : Statement → Nat
  | declare _ => n
  | assign _ e => (e.translate n).next
  | ret e => (e.translate n).next

/-- The code of a statement, with temporaries from `n` on. -/
def code (n : Nat) : Statement → List Instr
  | declare _ => []
  | assign x e => (e.translate n).code ++ [.mov (.named x) (e.translate n).result]
  | ret e => (e.translate n).code ++ [.ret (e.translate n).result]

/-- The code of statements, with temporaries from `n` on. -/
def listCode (n : Nat) : List Statement → List Instr
  | [] => []
  | s :: ss => s.code n ++ listCode (s.next n) ss

/-- The number of the next temporary behind statements. -/
def listNext (n : Nat) : List Statement → Nat
  | [] => n
  | s :: ss => listNext (s.next n) ss

end Statement

/-- The code of a program. -/
def Program.code (p : Program) : List Instr :=
  Statement.listCode 0 p.statements

mutual

/-- Every literal of an expression denotes a word. -/
def Expression.Fits : Expression → Prop
  | .single t => t.Fits
  | .more e _ t => e.Fits ∧ t.Fits

/-- Every literal of a term denotes a word. -/
def Term.Fits : Term → Prop
  | .single f => f.Fits
  | .times t f => t.Fits ∧ f.Fits

/-- Every literal of a factor denotes a word. -/
def Factor.Fits : Factor → Prop
  | .paren e => e.Fits
  | .name _ => True
  | .literal text => ∃ value, Decimal.toInt32? text = some value

end

/-- Every literal of a statement denotes a word. -/
def Statement.Fits : Statement → Prop
  | .declare _ => True
  | .assign _ e => e.Fits
  | .ret e => e.Fits

/-! ## Counting temporaries -/

/-- The tokens of arithmetic operators. -/
def Token.isOperator : Token → Bool
  | .plus | .minus | .times => true
  | _ => false

mutual

/-- Every operator takes one temporary. -/
theorem Expression.translate_next (n : Nat) (e : Expression) :
    (e.translate n).next = n + e.tokens.countP Token.isOperator := by
  match e with
  | .single t => exact t.translate_next n
  | .more e sign t =>
    have hsign : sign.token.isOperator = true := by cases sign <;> rfl
    rw [Expression.translate, Translation.next_arith, t.translate_next, e.translate_next,
      Expression.tokens, List.countP_append, List.countP_cons_of_pos hsign]
    omega

theorem Term.translate_next (n : Nat) (t : Term) :
    (t.translate n).next = n + t.tokens.countP Token.isOperator := by
  match t with
  | .single f => exact f.translate_next n
  | .times t f =>
    have htimes : Token.isOperator .times = true := rfl
    rw [Term.translate, Translation.next_arith, f.translate_next, t.translate_next, Term.tokens,
      List.countP_append, List.countP_cons_of_pos htimes]
    omega

theorem Factor.translate_next (n : Nat) (f : Factor) :
    (f.translate n).next = n + f.tokens.countP Token.isOperator := by
  match f with
  | .paren e =>
    rw [Factor.translate, e.translate_next, Factor.tokens]
    simp [Token.isOperator]
  | .name x => rfl
  | .literal text => rfl

end

namespace Statement

theorem next_eq (n : Nat) (s : Statement) :
    s.next n = n + s.tokens.countP Token.isOperator := by
  cases s with
  | declare x => rfl
  | assign x e => simp [next, e.translate_next, tokens, Token.isOperator]
  | ret e => simp [next, e.translate_next, tokens, Token.isOperator]

theorem listNext_eq (n : Nat) (ss : List Statement) :
    listNext n ss = n + (listTokens ss).countP Token.isOperator := by
  induction ss generalizing n with
  | nil => rfl
  | cons s ss ih =>
    have hsemicolon : List.countP Token.isOperator [.semicolon] = 0 := rfl
    rw [listNext, ih, next_eq]
    simp only [listTokens, List.flatMap_cons, List.countP_append, hsemicolon]
    omega

end Statement

/-! ## What an event does to the code -/

/-- The part of an analysis that belongs to the code. -/
structure Emission where
  /-- The cells of the observer that emits code. -/
  cells : List (Cell Operand)
  /-- The code so far. -/
  code : List Instr
  /-- The number of the next temporary. -/
  next : UInt32

/-- The part of an analysis that belongs to the code. -/
def Analysis.emission (a : Analysis) : Emission :=
  ⟨a.valueCells, a.code.toList, a.nextTemp⟩

/-- The cells that a reduction leaves and the instruction that it emits, put into effect. -/
def Emission.reduce (x : Emission) (cells : List (Cell Operand)) :
    Cell Operand × Option Instr → Emission
  | (cell, none) => { x with cells := cell :: cells }
  | (cell, some i) => ⟨cell :: cells, x.code ++ [i], if i.isArith then x.next + 1 else x.next⟩

namespace Analysis

variable {α : Type} {a a' : Analysis} {r : α}

theorem run_onTypes_eq_ok {x : StackAction SourceType α} :
    (onTypes x).run a = (.ok r, a') ↔
      ∃ cells, x.run a.typeCells = (.ok r, cells) ∧ a' = { a with typeCells := cells } := by
  have hrun : (onTypes x).run a =
      ((x.run a.typeCells).1, { a with typeCells := (x.run a.typeCells).2 }) := rfl
  rw [hrun]
  constructor
  · intro h
    obtain ⟨hr, ha⟩ := Prod.mk.inj h
    exact ⟨_, Prod.ext hr rfl, ha.symm⟩
  · rintro ⟨cells, hx, rfl⟩
    rw [hx]

theorem run_onValues_eq_ok {x : StackAction Operand α} :
    (onValues x).run a = (.ok r, a') ↔
      ∃ cells, x.run a.valueCells = (.ok r, cells) ∧ a' = { a with valueCells := cells } := by
  have hrun : (onValues x).run a =
      ((x.run a.valueCells).1, { a with valueCells := (x.run a.valueCells).2 }) := rfl
  rw [hrun]
  constructor
  · intro h
    obtain ⟨hr, ha⟩ := Prod.mk.inj h
    exact ⟨_, Prod.ext hr rfl, ha.symm⟩
  · rintro ⟨cells, hx, rfl⟩
    rw [hx]

/-- Binding a type changes the table and the log, and only if the name is in the table. -/
theorem bindType_ends (name : String) (type : SourceType) (a : Analysis) :
    (bindType name type).Ends a
      (fun _ a' => a.symbols.contains name = true ∧
        ∃ log, a' = { a with symbols := a.symbols.declare name type, log })
      (fun _ a' => a.symbols.contains name = false ∧ a' = a) := by
  rcases hfind : a.symbols.find? name with _ | previous
  · have hrun : (bindType name type).run a = (.error (.unboundDeclaration name), a) := by
      rw [Action.run, bindType, hfind]
    exact Action.ends_of_error hrun ⟨by rw [SymbolTable.contains, hfind]; rfl, rfl⟩
  · have hrun : (bindType name type).run a = (.ok (), ((bindType name type).run a).2) := by
      rw [Action.run, bindType, hfind]
    refine Action.ends_of_ok hrun ⟨by rw [SymbolTable.contains, hfind]; rfl, ?_⟩
    rw [Action.run, bindType, hfind]
    exact ⟨_, rfl⟩

theorem emission_of_bindType {name : String} {type : SourceType}
    (h : (bindType name type).run a = (.ok (), a')) : a'.emission = a.emission := by
  obtain ⟨-, log, rfl⟩ := (bindType_ends name type a).1 () a' h
  rfl

end Analysis

variable {a a' : Analysis}

/-- The observer of declarations has no part in the code. -/
theorem emission_of_typeBinder {e : Event} (h : (typeBinder.notify e).run a = (.ok (), a')) :
    a'.emission = a.emission := by
  cases e with
  | shift t =>
    obtain rfl := Action.run_modify_eq_ok.mp h
    rfl
  | reduce p =>
    obtain ⟨⟨cell, declared⟩, b, hb, hrest⟩ := Action.run_bind_eq_ok.mp h
    obtain ⟨cells, -, rfl⟩ := Analysis.run_onTypes_eq_ok.mp hb
    cases declared with
    | none =>
      obtain rfl := Action.run_modify_eq_ok.mp hrest
      rfl
    | some binding =>
      obtain ⟨⟨⟩, c, hbind, hpush⟩ := Action.run_bind_eq_ok.mp hrest
      obtain rfl := Action.run_modify_eq_ok.mp hpush
      have hemission := Analysis.emission_of_bindType hbind
      exact hemission
  | accept =>
    change (Analysis.onTypes AttributeStack.takeLast).run a = _ at h
    obtain ⟨cells, -, rfl⟩ := Analysis.run_onTypes_eq_ok.mp h
    rfl

/-- Log, then types, then code: only the last has to do with the code. -/
theorem exists_codeEmitter_of_analyst {e : Event} (h : (analyst.notify e).run a = (.ok (), a')) :
    ∃ b, b.emission = a.emission ∧ (codeEmitter.notify e).run b = (.ok (), a') := by
  obtain ⟨⟨⟩, b, hlog, hboth⟩ := Action.run_bind_eq_ok.mp h
  obtain ⟨⟨⟩, c, htypes, hcode⟩ := Action.run_bind_eq_ok.mp hboth
  obtain rfl := Action.run_modify_eq_ok.mp hlog
  have hemission := emission_of_typeBinder htypes
  exact ⟨c, hemission, hcode⟩

/-- A shift pushes its token. -/
theorem emission_of_shift {t : Token} (h : (analyst.notify (.shift t)).run a = (.ok (), a')) :
    a'.emission = { a.emission with cells := .token t :: a.emission.cells } := by
  obtain ⟨b, hb, h⟩ := exists_codeEmitter_of_analyst h
  obtain rfl := Action.run_modify_eq_ok.mp h
  rw [← hb]
  rfl

/-- A reduction puts into effect what it does to the cells. -/
theorem emission_of_reduce {p : Production}
    (h : (analyst.notify (.reduce p)).run a = (.ok (), a')) :
    ∃ symbols cells out, (valueReduction symbols (.temp a.emission.next) p).run a.emission.cells =
      (.ok out, cells) ∧ a'.emission = a.emission.reduce cells out := by
  obtain ⟨b, hb, hcode⟩ := exists_codeEmitter_of_analyst h
  obtain ⟨symbols, b₁, hsymbols, hrest⟩ := Action.run_bind_eq_ok.mp hcode
  obtain ⟨-, rfl⟩ := Action.run_inspect_eq_ok.mp hsymbols
  obtain ⟨temp, b₂, htemp, hrest⟩ := Action.run_bind_eq_ok.mp hrest
  obtain ⟨rfl, rfl⟩ := Action.run_inspect_eq_ok.mp htemp
  obtain ⟨⟨cell, emitted⟩, b₃, hreduce, hrest⟩ := Action.run_bind_eq_ok.mp hrest
  obtain ⟨cells, hcells, rfl⟩ := Analysis.run_onValues_eq_ok.mp hreduce
  rw [← hb]
  refine ⟨symbols, cells, (cell, emitted), hcells, ?_⟩
  cases emitted with
  | none =>
    obtain rfl := Action.run_modify_eq_ok.mp hrest
    rfl
  | some i =>
    obtain ⟨⟨⟩, b₄, happend, hpush⟩ := Action.run_bind_eq_ok.mp hrest
    obtain rfl := Action.run_modify_eq_ok.mp happend
    obtain rfl := Action.run_modify_eq_ok.mp hpush
    simp [Analysis.emission, Analysis.append, Emission.reduce]

/-! ## What a tree does to the code -/

/-- The value of a phrase, put on the stack behind its code. -/
def Emission.add (x : Emission) (tr : Translation) : Emission :=
  ⟨.value tr.result :: x.cells, x.code ++ tr.code, UInt32.ofNat tr.next⟩

/-- Productions that only pass a value on leave everything as it was. -/
theorem emission_of_pass {p : Production} (hp : p = .expression ∨ p = .term) {x : Emission}
    {tr : Translation} (hx : a.emission = x.add tr)
    (h : (analyst.notify (.reduce p)).run a = (.ok (), a')) : a'.emission = x.add tr := by
  obtain ⟨symbols, cells, out, hrun, ha'⟩ := emission_of_reduce h
  rw [ha', hx]
  rw [hx] at hrun
  rcases hp with rfl | rfl <;> cases hrun <;> rfl

/-- An operator with both operands on the stack emits its instruction. -/
theorem emission_of_arith {p : Production} {op : ArithOp}
    (hp : ∀ symbols temp, valueReduction symbols temp p = arithReduction temp op p)
    {x : Emission} {lhs rhs : Translation} {t : Token}
    (hx : a.emission =
      Emission.add { x.add lhs with cells := .token t :: (x.add lhs).cells } rhs)
    (h : (analyst.notify (.reduce p)).run a = (.ok (), a')) :
    a'.emission = x.add (.arith op lhs rhs) := by
  obtain ⟨symbols, cells, out, hrun, ha'⟩ := emission_of_reduce h
  rw [ha', hx]
  rw [hx, hp] at hrun
  cases hrun
  simp [Emission.reduce, Emission.add, Translation.arith, Instr.isArith, tempVar, UInt32.ofNat_add]

/-- The events of an operator: those of its left side, its token, those of its right side, and its
reduction. -/
theorem exists_of_deliver_sides {es fs : List Event} {t : Token} {p : Production}
    (h : (analyst.deliver (es ++ .shift t :: fs ++ [.reduce p])).run a = (.ok (), a')) :
    ∃ b c d, (analyst.deliver es).run a = (.ok (), b) ∧
      c.emission = { b.emission with cells := .token t :: b.emission.cells } ∧
      (analyst.deliver fs).run c = (.ok (), d) ∧
      (analyst.notify (.reduce p)).run d = (.ok (), a') := by
  obtain ⟨d, hsides, hreduce⟩ := Observer.run_deliver_concat_eq_ok.mp h
  obtain ⟨b, hleft, hright⟩ := Observer.run_deliver_append_eq_ok.mp hsides
  obtain ⟨⟨⟩, c, hshift, hright⟩ := Action.run_bind_eq_ok.mp hright
  exact ⟨b, c, d, hleft, emission_of_shift hshift, hright, hreduce⟩

theorem valueReduction_sign (sign : Sign) (symbols : SymbolTable) (temp : Var) :
    valueReduction symbols temp sign.role.production =
      arithReduction temp sign.op sign.role.production := by
  cases sign <;> rfl

/-- A name that is not refused is its own variable. -/
theorem run_resolve_eq_ok {symbols : SymbolTable} {x : String} {v : Var}
    {cells cells' : List (Cell Operand)} (h : (resolve symbols x).run cells = (.ok v, cells')) :
    v = .named x ∧ cells' = cells := by
  rw [resolve] at h
  split at h <;> cases h
  exact ⟨rfl, rfl⟩

/-- A name is the operand that reads its variable. -/
theorem run_valueReduction_name {symbols : SymbolTable} {temp : Var} {x : String}
    {cells cells' : List (Cell Operand)} {out : Cell Operand × Option Instr}
    (h : (valueReduction symbols temp .name).run (.token (.ident x) :: cells) =
      (.ok out, cells')) : out = (.value (.var (.named x)), none) ∧ cells' = cells := by
  change (resolve symbols x >>= fun v => pure (Cell.value (Operand.var v), none)).run cells = _ at h
  obtain ⟨v, _, hresolve, hout⟩ := Action.run_bind_eq_ok.mp h
  obtain ⟨rfl, rfl⟩ := run_resolve_eq_ok hresolve
  obtain ⟨rfl, rfl⟩ := Action.run_pure_eq_ok.mp hout
  exact ⟨rfl, rfl⟩

/-- An assignment moves the value to the variable of the name. -/
theorem run_valueReduction_assignment {symbols : SymbolTable} {temp : Var} {x : String}
    {src : Operand} {c : Cell Operand} {cells cells' : List (Cell Operand)}
    {out : Cell Operand × Option Instr}
    (h : (valueReduction symbols temp .assignment).run
      (.value src :: c :: .token (.ident x) :: cells) = (.ok out, cells')) :
    out = (.blank, some (.mov (.named x) src)) ∧ cells' = cells := by
  change (resolve symbols x >>= fun v =>
    pure (Cell.blank, some (Instr.mov v src))).run cells = _ at h
  obtain ⟨v, _, hresolve, hout⟩ := Action.run_bind_eq_ok.mp h
  obtain ⟨rfl, rfl⟩ := run_resolve_eq_ok hresolve
  obtain ⟨rfl, rfl⟩ := Action.run_pure_eq_ok.mp hout
  exact ⟨rfl, rfl⟩

/-- A literal that is not refused denotes a word. -/
theorem run_valueReduction_literal {symbols : SymbolTable} {temp : Var} {text : String}
    {cells cells' : List (Cell Operand)} {out : Cell Operand × Option Instr}
    (h : (valueReduction symbols temp .literal).run (.token (.literal text) :: cells) =
      (.ok out, cells')) :
    ∃ value, Decimal.toInt32? text = some value ∧ out = (.value (.imm value), none) ∧
      cells' = cells := by
  obtain ⟨t, _, hpop, hword⟩ := Action.run_bind_eq_ok.mp h
  cases hpop
  dsimp only at hword
  split at hword
  · next value hvalue =>
    cases hword
    exact ⟨value, hvalue, rfl, rfl⟩
  · cases hword

mutual

/-- An expression that is not refused is translated, and its literals fit. -/
theorem Expression.emission_of_deliver (e : Expression) {n : Nat} {a a' : Analysis}
    (hn : a.emission.next = UInt32.ofNat n) (h : (analyst.deliver e.events).run a = (.ok (), a')) :
    e.Fits ∧ a'.emission = a.emission.add (e.translate n) := by
  match e with
  | .single t =>
    obtain ⟨b, ht, hpass⟩ := Observer.run_deliver_concat_eq_ok.mp h
    obtain ⟨hfits, hb⟩ := t.emission_of_deliver hn ht
    exact ⟨hfits, emission_of_pass (.inl rfl) hb hpass⟩
  | .more e sign t =>
    obtain ⟨b, c, d, he, hc, ht, hreduce⟩ := exists_of_deliver_sides h
    obtain ⟨hfits, hb⟩ := e.emission_of_deliver hn he
    rw [hb] at hc
    have hnext : c.emission.next = UInt32.ofNat (e.translate n).next := by rw [hc]; rfl
    obtain ⟨hfits', hd⟩ := t.emission_of_deliver hnext ht
    rw [hc] at hd
    exact ⟨⟨hfits, hfits'⟩, emission_of_arith (valueReduction_sign sign) hd hreduce⟩

theorem Term.emission_of_deliver (t : Term) {n : Nat} {a a' : Analysis}
    (hn : a.emission.next = UInt32.ofNat n) (h : (analyst.deliver t.events).run a = (.ok (), a')) :
    t.Fits ∧ a'.emission = a.emission.add (t.translate n) := by
  match t with
  | .single f =>
    obtain ⟨b, hf, hpass⟩ := Observer.run_deliver_concat_eq_ok.mp h
    obtain ⟨hfits, hb⟩ := f.emission_of_deliver hn hf
    exact ⟨hfits, emission_of_pass (.inr rfl) hb hpass⟩
  | .times t f =>
    obtain ⟨b, c, d, ht, hc, hf, hreduce⟩ := exists_of_deliver_sides h
    obtain ⟨hfits, hb⟩ := t.emission_of_deliver hn ht
    rw [hb] at hc
    have hnext : c.emission.next = UInt32.ofNat (t.translate n).next := by rw [hc]; rfl
    obtain ⟨hfits', hd⟩ := f.emission_of_deliver hnext hf
    rw [hc] at hd
    exact ⟨⟨hfits, hfits'⟩, emission_of_arith (fun _ _ => rfl) hd hreduce⟩

theorem Factor.emission_of_deliver (f : Factor) {n : Nat} {a a' : Analysis}
    (hn : a.emission.next = UInt32.ofNat n) (h : (analyst.deliver f.events).run a = (.ok (), a')) :
    f.Fits ∧ a'.emission = a.emission.add (f.translate n) := by
  match f with
  | .paren e =>
    obtain ⟨c, hfront, hback⟩ := Observer.run_deliver_append_eq_ok.mp h
    obtain ⟨⟨⟩, b, hopen, he⟩ := Action.run_bind_eq_ok.mp hfront
    obtain ⟨⟨⟩, d, hclose, hreduce⟩ := Action.run_bind_eq_ok.mp hback
    rw [Observer.run_deliver_singleton] at hreduce
    have hb := emission_of_shift hopen
    have hnext : b.emission.next = UInt32.ofNat n := by rw [hb]; exact hn
    obtain ⟨hfits, hc⟩ := e.emission_of_deliver hnext he
    have hd := emission_of_shift hclose
    rw [hc, hb] at hd
    obtain ⟨symbols, cells, out, hrun, ha'⟩ := emission_of_reduce hreduce
    rw [hd] at hrun
    rw [ha', hd]
    cases hrun
    exact ⟨hfits, rfl⟩
  | .name x =>
    obtain ⟨⟨⟩, b, hshift, hreduce⟩ := Action.run_bind_eq_ok.mp h
    rw [Observer.run_deliver_singleton] at hreduce
    have hb := emission_of_shift hshift
    obtain ⟨symbols, cells, out, hrun, ha'⟩ := emission_of_reduce hreduce
    rw [hb] at hrun
    obtain ⟨rfl, rfl⟩ := run_valueReduction_name hrun
    rw [ha', hb]
    simp [Factor.Fits, Factor.translate, Emission.add, Emission.reduce, hn]
  | .literal text =>
    obtain ⟨⟨⟩, b, hshift, hreduce⟩ := Action.run_bind_eq_ok.mp h
    rw [Observer.run_deliver_singleton] at hreduce
    have hb := emission_of_shift hshift
    obtain ⟨symbols, cells, out, hrun, ha'⟩ := emission_of_reduce hreduce
    rw [hb] at hrun
    obtain ⟨value, hvalue, rfl, rfl⟩ := run_valueReduction_literal hrun
    rw [ha', hb]
    simp [Factor.Fits, Factor.translate, Emission.add, Emission.reduce, literalWord, hvalue, hn]

end

/-- Productions without a value leave the code as it was. -/
theorem emission_of_discard {p : Production}
    (hp : ∀ symbols temp, valueReduction symbols temp p = do
      AttributeStack.discard p
      return (.blank, none))
    (h : (analyst.notify (.reduce p)).run a = (.ok (), a')) :
    ∃ cells, a'.emission = { a.emission with cells } := by
  obtain ⟨symbols, cells, out, hrun, ha'⟩ := emission_of_reduce h
  rw [hp] at hrun
  obtain ⟨⟨⟩, _, -, hout⟩ := Action.run_bind_eq_ok.mp hrun
  obtain ⟨rfl, rfl⟩ := Action.run_pure_eq_ok.mp hout
  exact ⟨_, ha'⟩

/-- A statement that is not refused is translated, and its literals fit. -/
theorem Statement.emission_of_deliver (s : Statement) {n : Nat} {a a' : Analysis}
    (hn : a.emission.next = UInt32.ofNat n) (h : (analyst.deliver s.events).run a = (.ok (), a')) :
    s.Fits ∧ ∃ cells, a'.emission =
      ⟨cells, a.emission.code ++ s.code n, UInt32.ofNat (s.next n)⟩ := by
  cases s with
  | declare x =>
    obtain ⟨⟨⟩, b, hint, h⟩ := Action.run_bind_eq_ok.mp h
    obtain ⟨⟨⟩, c, hdeclarator, h⟩ := Action.run_bind_eq_ok.mp h
    obtain ⟨⟨⟩, d, hname, hdeclaration⟩ := Action.run_bind_eq_ok.mp h
    rw [Observer.run_deliver_singleton] at hdeclaration
    have hb := emission_of_shift hint
    obtain ⟨_, hc⟩ := emission_of_discard (fun _ _ => rfl) hdeclarator
    have hd := emission_of_shift hname
    obtain ⟨cells, ha'⟩ := emission_of_discard (fun _ _ => rfl) hdeclaration
    rw [hd, hc, hb] at ha'
    exact ⟨trivial, cells, by simp [ha', hn, code, next]⟩
  | assign x e =>
    obtain ⟨d, hfront, hreduce⟩ := Observer.run_deliver_concat_eq_ok.mp h
    obtain ⟨⟨⟩, b, hname, hfront⟩ := Action.run_bind_eq_ok.mp hfront
    obtain ⟨⟨⟩, c, hassign, he⟩ := Action.run_bind_eq_ok.mp hfront
    have hb := emission_of_shift hname
    have hc := emission_of_shift hassign
    have hnext : c.emission.next = UInt32.ofNat n := by rw [hc, hb]; exact hn
    obtain ⟨hfits, hd⟩ := e.emission_of_deliver hnext he
    rw [hc, hb] at hd
    obtain ⟨symbols, cells, out, hrun, ha'⟩ := emission_of_reduce hreduce
    rw [hd] at hrun
    obtain ⟨rfl, rfl⟩ := run_valueReduction_assignment hrun
    rw [ha', hd]
    exact ⟨hfits, _, by simp [Emission.reduce, Emission.add, code, next, Instr.isArith]; rfl⟩
  | ret e =>
    obtain ⟨d, hfront, hreduce⟩ := Observer.run_deliver_concat_eq_ok.mp h
    obtain ⟨⟨⟩, b, hret, he⟩ := Action.run_bind_eq_ok.mp hfront
    have hb := emission_of_shift hret
    have hnext : b.emission.next = UInt32.ofNat n := by rw [hb]; exact hn
    obtain ⟨hfits, hd⟩ := e.emission_of_deliver hnext he
    rw [hb] at hd
    obtain ⟨symbols, cells, out, hrun, ha'⟩ := emission_of_reduce hreduce
    rw [hd] at hrun
    cases hrun
    rw [ha', hd]
    exact ⟨hfits, _, by simp [Emission.reduce, Emission.add, code, next, Instr.isArith]; rfl⟩

/-- Statements that are not refused are translated one behind the other. -/
theorem Statement.emission_of_deliver_list (ss : List Statement) {n : Nat} {a a' : Analysis}
    (hn : a.emission.next = UInt32.ofNat n)
    (h : (analyst.deliver (listEvents ss)).run a = (.ok (), a')) :
    (∀ s ∈ ss, s.Fits) ∧ ∃ cells, a'.emission =
      ⟨cells, a.emission.code ++ listCode n ss, UInt32.ofNat (listNext n ss)⟩ := by
  induction ss generalizing n a with
  | nil =>
    obtain ⟨-, rfl⟩ := Action.run_pure_eq_ok.mp h
    exact ⟨by simp, a.emission.cells, by simp [listCode, listNext, ← hn]⟩
  | cons s ss ih =>
    rw [listEvents, List.flatMap_cons] at h
    obtain ⟨c, hfirst, hothers⟩ := Observer.run_deliver_append_eq_ok.mp h
    obtain ⟨b, hs, hshift⟩ := Observer.run_deliver_concat_eq_ok.mp hfirst
    obtain ⟨hfits, cells, hb⟩ := s.emission_of_deliver hn hs
    have hc := emission_of_shift hshift
    rw [hb] at hc
    have hnext : c.emission.next = UInt32.ofNat (s.next n) := by rw [hc]
    obtain ⟨hfits', cells', ha'⟩ := ih hnext hothers
    refine ⟨List.forall_mem_cons.mpr ⟨hfits, hfits'⟩, cells', ?_⟩
    rw [ha', hc]
    simp [listCode, listNext]

/-- An event that ends a program. -/
def Event.Closing (e : Event) : Prop :=
  e = .reduce .lastStatement ∨ e = .reduce .statementList ∨ e = .reduce .program ∨ e = .accept

theorem closing_of_mem_closingEvents {n : Nat} {e : Event} (h : e ∈ closingEvents n) :
    e.Closing := by
  simp only [closingEvents, List.mem_append, List.mem_cons, List.mem_replicate,
    List.not_mem_nil, or_false] at h
  rw [Event.Closing]
  tauto

/-- Reducing the list of statements emits nothing. -/
theorem emission_of_deliver_closing {es : List Event} (hes : ∀ e ∈ es, e.Closing)
    (h : (analyst.deliver es).run a = (.ok (), a')) :
    ∃ cells, a'.emission = { a.emission with cells } := by
  induction es generalizing a with
  | nil =>
    obtain ⟨-, rfl⟩ := Action.run_pure_eq_ok.mp h
    exact ⟨a.emission.cells, rfl⟩
  | cons e es ih =>
    obtain ⟨⟨⟩, b, he, hes'⟩ := Action.run_bind_eq_ok.mp h
    have hb : ∃ cells, b.emission = { a.emission with cells } := by
      rcases hes e (by simp) with rfl | rfl | rfl | rfl
      · exact emission_of_discard (fun _ _ => rfl) he
      · exact emission_of_discard (fun _ _ => rfl) he
      · exact emission_of_discard (fun _ _ => rfl) he
      · obtain ⟨c, hc, haccept⟩ := exists_codeEmitter_of_analyst he
        change (Analysis.onValues AttributeStack.takeLast).run c = _ at haccept
        obtain ⟨cells, -, rfl⟩ := Analysis.run_onValues_eq_ok.mp haccept
        exact ⟨cells, by rw [← hc]; rfl⟩
    obtain ⟨cells, hb⟩ := hb
    obtain ⟨cells', ha'⟩ := ih (fun e' he' => hes e' (by simp [he'])) hes'
    exact ⟨cells', by rw [ha', hb]⟩

/-- A token list whose analysis succeeds begins with a program. -/
theorem exists_program_of_analyse {tokens : List Token} {symbols : SymbolTable} {a : Analysis}
    (h : analyse tokens symbols = (.ok (), a)) :
    ∃ (p : Program) (rest : List Token), tokens = p.tokens ++ .eof :: rest := by
  rw [analyse, parse, Reading.run_parseFrom_eq_ok] at h
  exact Reading.consumed_start.exists_program_of_outcomeFrom h.2

/-- **The code of an analysis.** If the analysis of a program succeeds, the literals fit and the code
of the program has been emitted. -/
theorem Program.code_of_analyse {p : Program} {rest : List Token} {symbols : SymbolTable}
    {a : Analysis} (h : analyse (p.tokens ++ .eof :: rest) symbols = (.ok (), a)) :
    (∀ s ∈ p.statements, s.Fits) ∧ a.code.toList = p.code := by
  rw [analyse, parse, Reading.run_parseFrom_eq_ok, p.eventsFrom_tokens, p.events_accept] at h
  obtain ⟨b, hlist, hclose⟩ := Observer.run_deliver_append_eq_ok.mp h.1
  obtain ⟨hfits, cells, hb⟩ := Statement.emission_of_deliver_list (n := 0) p.statements rfl hlist
  obtain ⟨cells', ha⟩ :=
    emission_of_deliver_closing (fun _ => closing_of_mem_closingEvents) hclose
  rw [hb] at ha
  exact ⟨hfits, congrArg Emission.code ha⟩

end StraightLine
