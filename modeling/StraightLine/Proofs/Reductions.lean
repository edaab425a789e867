import Mathlib
import StraightLine.Proofs.StackEffect
import StraightLine.Proofs.SymbolStack
import StraightLine.Proofs.Translation

/-!
# What a reduction finds on the attribute stacks and leaves there

The observers of a parse each keep a stack of cells. A reduction works on the top of it and may find
anything there, since nobody checks that the events are those of a parse. `Reduces` lists what the
observer that emits code can find when it succeeds; when it fails, it has only taken cells off.

In a parse, the cells stand for the symbols on the stack of the parse, one for one: a token for a
terminal, a value for a category that has values, and nothing for the others. Then a reduction
always finds what it needs, with one exception: a literal may denote no word.

## Main definitions

* `Reduces` — a reduction that succeeds, with the cells it drops without taking a value from them
* `Cell.Stands` — a cell is what there should be for a symbol
* `Emission.Step` — what an event does to the code when it is not refused

## Main results

* `valueReduction_ends`, `Reduces.run_eq` — when a reduction succeeds, and what a failure leaves
* `Reduces.stands`, `exists_reduces` — cells that stand for the symbols of a parse
* `typeReduction_stands` — the same for the observer of declarations
* `codeEmitter_ends` — how an event ends for the observer that emits code
-/

namespace StraightLine

open AttributeStack

/-! ## Taking cells off -/

section Pops

variable {α : Type} {p : Production} {expected : String} {cells rest : List (Cell α)}

theorem eq_cons_of_pop {c : Cell α} (h : (pop p).run cells = (.ok c, rest)) :
    cells = c :: rest := by
  cases cells with
  | nil => cases h
  | cons c cells =>
    cases h
    rfl

theorem eq_cons_of_popValue {v : α} (h : (popValue p expected).run cells = (.ok v, rest)) :
    cells = .value v :: rest := by
  obtain ⟨c, mid, hpop, h⟩ := Action.run_bind_eq_ok.mp h
  cases c with
  | value v =>
    cases h
    exact eq_cons_of_pop hpop
  | token t => cases h
  | blank => cases h

theorem eq_cons_of_popToken {t : Token} (h : (popToken p expected).run cells = (.ok t, rest)) :
    cells = .token t :: rest := by
  obtain ⟨c, mid, hpop, h⟩ := Action.run_bind_eq_ok.mp h
  cases c with
  | value v => cases h
  | token t =>
    cases h
    exact eq_cons_of_pop hpop
  | blank => cases h

theorem run_discard_append {front rest : List (Cell α)} (h : front.length = p.arity) :
    (discard p).run (front ++ rest) = (.ok (), rest) := by
  have hlen : ¬ (front ++ rest).length < p.arity := by
    rw [List.length_append]
    omega
  have hrun : (discard p).run (front ++ rest) = (.ok (), (front ++ rest).drop p.arity) :=
    if_neg hlen
  rw [hrun, ← h, List.drop_left]

end Pops

variable {symbols : SymbolTable} {temp : Var} {p : Production} {x : String}
  {cells dropped rest : List (Cell Operand)} {out : Cell Operand × Option Instr}

theorem eq_cons_of_popName (h : (popName p).run cells = (.ok x, rest)) :
    cells = .token (.ident x) :: rest := by
  obtain ⟨t, mid, hpop, h⟩ := Action.run_bind_eq_ok.mp h
  cases t with
  | ident x =>
    cases h
    exact eq_cons_of_popToken hpop
  | _ => cases h

theorem contains_of_resolve {v : Var} (h : (resolve symbols x).run cells = (.ok v, rest)) :
    symbols.contains x = true ∧ v = .named x ∧ rest = cells := by
  rw [resolve] at h
  split at h
  · next hx =>
    cases h
    exact ⟨hx, rfl, rfl⟩
  · cases h

/-! ## Reductions that emit code -/

/-- The production of an operator. -/
def ArithOp.production : ArithOp → Production
  | .add => .add
  | .sub => .sub
  | .mul => .mul

/-- The productions that have no value and take none. -/
def Production.isBare : Production → Bool
  | .program | .statementList | .lastStatement | .declaration | .declarator => true
  | _ => false

/-- A reduction that succeeds: the cells it finds, those among them that it drops without taking a
value, the cell and the instruction that come out, and the cells that are left. -/
inductive Reduces (symbols : SymbolTable) (temp : Var) : Production → List (Cell Operand) →
    List (Cell Operand) → Cell Operand × Option Instr → List (Cell Operand) → Prop where
  | assignment {x : String} (src : Operand) (sign : Cell Operand) (rest : List (Cell Operand))
      (known : symbols.contains x = true) :
      Reduces symbols temp .assignment (.value src :: sign :: .token (.ident x) :: rest)
        [sign, .token (.ident x)] (.blank, some (.mov (.named x) src)) rest
  | ret (value : Operand) (word : Cell Operand) (rest : List (Cell Operand)) :
      Reduces symbols temp .ret (.value value :: word :: rest) [word]
        (.blank, some (.ret value)) rest
  | arith (op : ArithOp) (lhs rhs : Operand) (sign : Cell Operand) (rest : List (Cell Operand)) :
      Reduces symbols temp op.production (.value rhs :: sign :: .value lhs :: rest) [sign]
        (.value (.var temp), some (.arith op temp lhs rhs)) rest
  | pass {p : Production} (through : p = .expression ∨ p = .term) (value : Operand)
      (rest : List (Cell Operand)) :
      Reduces symbols temp p (.value value :: rest) [] (.value value, none) rest
  | paren (value : Operand) (left right : Cell Operand) (rest : List (Cell Operand)) :
      Reduces symbols temp .paren (right :: .value value :: left :: rest) [right, left]
        (.value value, none) rest
  | name {x : String} (rest : List (Cell Operand)) (known : symbols.contains x = true) :
      Reduces symbols temp .name (.token (.ident x) :: rest) [.token (.ident x)]
        (.value (.var (.named x)), none) rest
  | literal {text : String} {value : Int32} (rest : List (Cell Operand))
      (denotes : Decimal.toInt32? text = some value) :
      Reduces symbols temp .literal (.token (.literal text) :: rest) [.token (.literal text)]
        (.value (.imm value), none) rest
  | bare {p : Production} (bare : p.isBare = true) (front rest : List (Cell Operand))
      (length : front.length = p.arity) :
      Reduces symbols temp p (front ++ rest) front (.blank, none) rest

theorem valueReduction_production (symbols : SymbolTable) (temp : Var) (op : ArithOp) :
    valueReduction symbols temp op.production = arithReduction temp op op.production := by
  cases op <;> rfl

theorem valueReduction_bare (hp : p.isBare = true) (symbols : SymbolTable) (temp : Var) :
    valueReduction symbols temp p = do
      discard p
      return (.blank, none) := by
  cases p with
  | program | statementList | lastStatement | declaration | declarator => rfl
  | _ => cases hp

theorem exists_reduces_of_arithReduction (op : ArithOp)
    (h : (arithReduction temp op op.production).run cells = (.ok out, rest)) :
    ∃ dropped, Reduces symbols temp op.production cells dropped out rest := by
  obtain ⟨rhs, _, hrhs, h⟩ := Action.run_bind_eq_ok.mp h
  obtain ⟨sign, _, hsign, h⟩ := Action.run_bind_eq_ok.mp h
  obtain ⟨lhs, _, hlhs, h⟩ := Action.run_bind_eq_ok.mp h
  cases h
  obtain rfl := eq_cons_of_popValue hrhs
  obtain rfl := eq_cons_of_pop hsign
  obtain rfl := eq_cons_of_popValue hlhs
  exact ⟨_, .arith op lhs rhs sign rest⟩

theorem exists_reduces_of_bare (hp : p.isBare = true)
    (h : (valueReduction symbols temp p).run cells = (.ok out, rest)) :
    ∃ dropped, Reduces symbols temp p cells dropped out rest := by
  rw [valueReduction_bare hp] at h
  obtain ⟨⟨⟩, _, hdiscard, h⟩ := Action.run_bind_eq_ok.mp h
  cases h
  obtain ⟨front, hlen, rfl⟩ := (takes_discard p cells).1 _ _ hdiscard
  exact ⟨front, .bare hp front rest hlen⟩

/-- A reduction succeeds only as listed in `Reduces`. -/
theorem exists_reduces_of_run (h : (valueReduction symbols temp p).run cells = (.ok out, rest)) :
    ∃ dropped, Reduces symbols temp p cells dropped out rest := by
  cases p with
  | assignment =>
    obtain ⟨src, _, hsrc, h⟩ := Action.run_bind_eq_ok.mp h
    obtain ⟨sign, _, hsign, h⟩ := Action.run_bind_eq_ok.mp h
    obtain ⟨x, _, hname, h⟩ := Action.run_bind_eq_ok.mp h
    obtain ⟨v, _, hresolve, h⟩ := Action.run_bind_eq_ok.mp h
    cases h
    obtain rfl := eq_cons_of_popValue hsrc
    obtain rfl := eq_cons_of_pop hsign
    obtain rfl := eq_cons_of_popName hname
    obtain ⟨hx, rfl, rfl⟩ := contains_of_resolve hresolve
    exact ⟨_, .assignment src sign _ hx⟩
  | ret =>
    obtain ⟨value, _, hvalue, h⟩ := Action.run_bind_eq_ok.mp h
    obtain ⟨word, _, hword, h⟩ := Action.run_bind_eq_ok.mp h
    cases h
    obtain rfl := eq_cons_of_popValue hvalue
    obtain rfl := eq_cons_of_pop hword
    exact ⟨_, .ret value word rest⟩
  | add => exact exists_reduces_of_arithReduction .add h
  | sub => exact exists_reduces_of_arithReduction .sub h
  | mul => exact exists_reduces_of_arithReduction .mul h
  | expression =>
    obtain ⟨value, _, hvalue, h⟩ := Action.run_bind_eq_ok.mp h
    cases h
    obtain rfl := eq_cons_of_popValue hvalue
    exact ⟨_, .pass (.inl rfl) value rest⟩
  | term =>
    obtain ⟨value, _, hvalue, h⟩ := Action.run_bind_eq_ok.mp h
    cases h
    obtain rfl := eq_cons_of_popValue hvalue
    exact ⟨_, .pass (.inr rfl) value rest⟩
  | paren =>
    obtain ⟨right, _, hright, h⟩ := Action.run_bind_eq_ok.mp h
    obtain ⟨value, _, hvalue, h⟩ := Action.run_bind_eq_ok.mp h
    obtain ⟨left, _, hleft, h⟩ := Action.run_bind_eq_ok.mp h
    cases h
    obtain rfl := eq_cons_of_pop hright
    obtain rfl := eq_cons_of_popValue hvalue
    obtain rfl := eq_cons_of_pop hleft
    exact ⟨_, .paren value left right rest⟩
  | name =>
    obtain ⟨x, _, hname, h⟩ := Action.run_bind_eq_ok.mp h
    obtain ⟨v, _, hresolve, h⟩ := Action.run_bind_eq_ok.mp h
    cases h
    obtain rfl := eq_cons_of_popName hname
    obtain ⟨hx, rfl, rfl⟩ := contains_of_resolve hresolve
    exact ⟨_, .name _ hx⟩
  | literal =>
    obtain ⟨t, _, htoken, hdenotes⟩ := Action.run_bind_eq_ok.mp h
    obtain rfl := eq_cons_of_popToken htoken
    cases t with
    | literal text =>
      dsimp only at hdenotes
      split at hdenotes
      · next value hvalue =>
        cases hdenotes
        exact ⟨_, .literal rest hvalue⟩
      · cases hdenotes
    | _ => cases hdenotes
  | _ => exact exists_reduces_of_bare rfl h

/-- **How a reduction ends**: as one of those listed in `Reduces`, or with some cells taken off. -/
theorem valueReduction_ends (symbols : SymbolTable) (temp : Var) (p : Production)
    (cells : List (Cell Operand)) :
    (valueReduction symbols temp p).Ends cells
      (fun out rest => ∃ dropped, Reduces symbols temp p cells dropped out rest)
      (fun _ rest => rest <:+ cells) := by
  refine ⟨fun out rest h => exists_reduces_of_run h, fun e rest h => ?_⟩
  obtain ⟨taken, -, rfl⟩ := (valueReduction_takes p symbols temp cells).2 e rest h
  exact List.suffix_append taken rest

/-- A literal becomes the word it denotes. -/
theorem run_literal_some {text : String} {value : Int32}
    (h : Decimal.toInt32? text = some value) (rest : List (Cell Operand)) :
    (valueReduction symbols temp .literal).run (.token (.literal text) :: rest) =
      (.ok (.value (.imm value), none), rest) := by
  have hpop : (popToken .literal "a terminal").run (.token (.literal text) :: rest) =
      (.ok (.literal text), rest) := rfl
  refine (Action.run_bind_of_ok hpop _).trans ?_
  dsimp only
  rw [h]
  rfl

/-- A literal that denotes no word is refused. -/
theorem run_literal_none {text : String} (h : Decimal.toInt32? text = none)
    (rest : List (Cell Operand)) :
    (valueReduction symbols temp .literal).run (.token (.literal text) :: rest) =
      (.error (.badLiteral text), rest) := by
  have hpop : (popToken .literal "a terminal").run (.token (.literal text) :: rest) =
      (.ok (.literal text), rest) := rfl
  refine (Action.run_bind_of_ok hpop _).trans ?_
  dsimp only
  rw [h]
  rfl

/-- Where a reduction can succeed, it does. -/
theorem Reduces.run_eq (h : Reduces symbols temp p cells dropped out rest) :
    (valueReduction symbols temp p).run cells = (.ok out, rest) := by
  have hresolve : ∀ (x : String) (cells : List (Cell Operand)), symbols.contains x = true →
      (resolve symbols x).run cells = (.ok (.named x), cells) := by
    intro x cells hx
    rw [resolve, if_pos hx]
    rfl
  cases h with
  | @assignment x src sign _ known => exact Action.run_bind_of_ok (hresolve x rest known) _
  | ret value word => rfl
  | arith op lhs rhs sign =>
    rw [valueReduction_production]
    rfl
  | pass through value => rcases through with rfl | rfl <;> rfl
  | paren value left right => rfl
  | @name x _ known => exact Action.run_bind_of_ok (hresolve x rest known) _
  | literal _ denotes => exact run_literal_some denotes rest
  | bare hbare front _ hlen =>
    rw [valueReduction_bare hbare, Action.run_bind_of_ok (run_discard_append hlen)]
    rfl

/-! ## Cells for symbols -/

/-- The categories that have a value for the observer that emits code. -/
def Nonterminal.isValued : Nonterminal → Bool
  | .expression | .term | .factor => true
  | _ => false

/-- The category that has a value for the observer of declarations. -/
def Nonterminal.isTyped : Nonterminal → Bool
  | .declarator => true
  | _ => false

/-- A cell is what there should be for a symbol: a known token of the kind of a terminal, a value
for a category that has values, nothing for another. -/
def Cell.Stands {α : Type} (known : Token → Prop) (hasValue : Nonterminal → Bool) :
    GrammarSymbol → Cell α → Prop
  | .terminal k, .token t => t.kind = k ∧ known t
  | .nonterminal n, .value _ => hasValue n = true
  | .nonterminal n, .blank => hasValue n = false
  | _, _ => False

/-- The cells of a stack are what there should be for the symbols. -/
abbrev Cell.StandAll {α : Type} (known : Token → Prop) (hasValue : Nonterminal → Bool) :
    List GrammarSymbol → List (Cell α) → Prop :=
  List.Forall₂ (Cell.Stands known hasValue)

namespace Cell

variable {α : Type} {known : Token → Prop} {hasValue : Nonterminal → Bool} {k : Token.Kind}
  {n : Nonterminal} {c : Cell α} {ss : List GrammarSymbol} {stack : List (Cell α)}

theorem Stands.exists_token (h : Stands known hasValue (.terminal k) c) :
    ∃ t, c = .token t ∧ t.kind = k ∧ known t := by
  cases c with
  | token t => exact ⟨t, rfl, h⟩
  | value a => exact h.elim
  | blank => exact h.elim

theorem Stands.exists_value (h : Stands known hasValue (.nonterminal n) c)
    (hn : hasValue n = true) : ∃ a, c = .value a := by
  cases c with
  | token t => exact h.elim
  | value a => exact ⟨a, rfl⟩
  | blank =>
    have hblank : hasValue n = false := h
    rw [hn] at hblank
    cases hblank

theorem Stands.eq_blank (h : Stands known hasValue (.nonterminal n) c)
    (hn : hasValue n = false) : c = .blank := by
  cases c with
  | token t => exact h.elim
  | value a =>
    have hvalue : hasValue n = true := h
    rw [hn] at hvalue
    cases hvalue
  | blank => rfl

/-- A stack for symbols, the top of which is known, has a cell for that symbol on top. -/
theorem StandAll.exists_cons {s : GrammarSymbol} (h : StandAll known hasValue (s :: ss) stack) :
    ∃ c rest, stack = c :: rest ∧ Stands known hasValue s c ∧ StandAll known hasValue ss rest := by
  cases h with
  | cons hc hrest => exact ⟨_, _, rfl, hc, hrest⟩

/-- A stack for a body on top of other symbols has as many cells for the body as it has symbols. -/
theorem StandAll.exists_append {body : List GrammarSymbol}
    (h : StandAll known hasValue (body ++ ss) stack) :
    ∃ front rest, stack = front ++ rest ∧ front.length = body.length ∧
      StandAll known hasValue body front ∧ StandAll known hasValue ss rest := by
  induction body generalizing stack with
  | nil => exact ⟨[], stack, rfl, rfl, .nil, h⟩
  | cons s body ih =>
    obtain ⟨c, others, rfl, hc, hothers⟩ := StandAll.exists_cons h
    obtain ⟨front, rest, rfl, hlen, hfront, hrest⟩ := ih hothers
    exact ⟨c :: front, rest, rfl, by simp [hlen], .cons hc hfront, hrest⟩

/-- Cells for symbols without values have no values. -/
theorem StandAll.not_value (h : StandAll known hasValue ss stack)
    (hss : ∀ n, .nonterminal n ∈ ss → hasValue n = false) : ∀ a, .value a ∉ stack := by
  intro a ha
  induction h with
  | nil => cases ha
  | @cons s c ss rest hc hrest ih =>
    rcases List.mem_cons.mp ha with rfl | ha
    · cases s with
      | terminal k => exact hc.elim
      | nonterminal n =>
        have hvalue : hasValue n = true := hc
        rw [hss n List.mem_cons_self] at hvalue
        cases hvalue
    · exact ih (fun n hn => hss n (List.mem_cons_of_mem s hn)) ha

end Cell

/-- The bodies of bare productions have no values in them, nor have their heads. -/
theorem Production.not_isValued_of_isBare (hp : p.isBare = true) :
    p.head.isValued = false ∧ ∀ n, .nonterminal n ∈ p.body → n.isValued = false := by
  cases p with
  | program | statementList | lastStatement | declaration | declarator =>
    simp [Production.head, Production.body, Nonterminal.isValued]
  | _ => cases hp

open Cell

variable {known : Token → Prop} {ss : List GrammarSymbol}

/-- **A reduction in a parse keeps the cells in step** with the symbols, and the cells that it drops
have no value. -/
theorem Reduces.stands (h : Reduces symbols temp p cells dropped out rest)
    (hcells : StandAll known Nonterminal.isValued (p.body.reverse ++ ss) cells) :
    StandAll known Nonterminal.isValued (.nonterminal p.head :: ss) (out.1 :: rest) ∧
      ∀ a, .value a ∉ dropped := by
  cases h with
  | assignment src sign _ hx =>
    obtain ⟨-, h₁⟩ := List.forall₂_cons.mp hcells
    obtain ⟨hsign, h₂⟩ := List.forall₂_cons.mp h₁
    obtain ⟨-, hrest⟩ := List.forall₂_cons.mp h₂
    obtain ⟨t, rfl, -⟩ := hsign.exists_token
    exact ⟨.cons rfl hrest, by simp⟩
  | ret value word =>
    obtain ⟨-, h₁⟩ := List.forall₂_cons.mp hcells
    obtain ⟨hword, hrest⟩ := List.forall₂_cons.mp h₁
    obtain ⟨t, rfl, -⟩ := hword.exists_token
    exact ⟨.cons rfl hrest, by simp⟩
  | arith op lhs rhs sign =>
    cases op
    all_goals
      obtain ⟨-, h₁⟩ := List.forall₂_cons.mp hcells
      obtain ⟨hsign, h₂⟩ := List.forall₂_cons.mp h₁
      obtain ⟨-, hrest⟩ := List.forall₂_cons.mp h₂
      obtain ⟨t, rfl, -⟩ := hsign.exists_token
      exact ⟨.cons rfl hrest, by simp⟩
  | pass through value =>
    rcases through with rfl | rfl
    all_goals
      obtain ⟨-, hrest⟩ := List.forall₂_cons.mp hcells
      exact ⟨.cons rfl hrest, by simp⟩
  | paren value left right =>
    obtain ⟨hright, h₁⟩ := List.forall₂_cons.mp hcells
    obtain ⟨-, h₂⟩ := List.forall₂_cons.mp h₁
    obtain ⟨hleft, hrest⟩ := List.forall₂_cons.mp h₂
    obtain ⟨t, rfl, -⟩ := hright.exists_token
    obtain ⟨u, rfl, -⟩ := hleft.exists_token
    exact ⟨.cons rfl hrest, by simp⟩
  | name _ hx =>
    obtain ⟨-, hrest⟩ := List.forall₂_cons.mp hcells
    exact ⟨.cons rfl hrest, by simp⟩
  | literal _ hvalue =>
    obtain ⟨-, hrest⟩ := List.forall₂_cons.mp hcells
    exact ⟨.cons rfl hrest, by simp⟩
  | bare hbare _ _ hlen =>
    obtain ⟨front, rest', heq, hlen', hfront, hrest⟩ := StandAll.exists_append hcells
    obtain ⟨hhead, hbody⟩ := Production.not_isValued_of_isBare hbare
    have hlengths : dropped.length = front.length := by
      rw [hlen, hlen', List.length_reverse, Production.arity]
    obtain ⟨rfl, rfl⟩ := List.append_inj heq hlengths
    exact ⟨.cons hhead hrest, hfront.not_value (by simpa using hbody)⟩

/-- **In a parse, every reduction but that of a literal succeeds.** -/
theorem exists_reduces (temp : Var)
    (hcells : StandAll known Nonterminal.isValued (p.body.reverse ++ ss) cells)
    (hknown : ∀ x, known (.ident x) → symbols.contains x = true) (hp : p ≠ .literal) :
    ∃ dropped out rest, Reduces symbols temp p cells dropped out rest := by
  have hname : ∀ {c : Cell Operand}, Stands known Nonterminal.isValued (.terminal .ident) c →
      ∃ x, c = .token (.ident x) ∧ symbols.contains x = true := by
    intro c hc
    obtain ⟨t, rfl, hkind, ht⟩ := hc.exists_token
    obtain ⟨x, rfl⟩ := Token.eq_ident_of_kind hkind
    exact ⟨x, rfl, hknown x ht⟩
  have hbinary : ∀ (op : ArithOp) {n₁ n₂ : Nonterminal} {k : Token.Kind},
      n₁.isValued = true → n₂.isValued = true →
      StandAll known Nonterminal.isValued (.nonterminal n₁ :: .terminal k :: .nonterminal n₂ :: ss)
        cells → ∃ dropped out rest, Reduces symbols temp op.production cells dropped out rest := by
    intro op n₁ n₂ k hn₁ hn₂ hcells
    obtain ⟨c₁, _, rfl, hc₁, hrest⟩ := StandAll.exists_cons hcells
    obtain ⟨c₂, _, rfl, -, hrest⟩ := StandAll.exists_cons hrest
    obtain ⟨c₃, _, rfl, hc₃, -⟩ := StandAll.exists_cons hrest
    obtain ⟨rhs, rfl⟩ := hc₁.exists_value hn₁
    obtain ⟨lhs, rfl⟩ := hc₃.exists_value hn₂
    exact ⟨_, _, _, .arith op lhs rhs c₂ _⟩
  cases p with
  | assignment =>
    obtain ⟨c₁, _, rfl, hc₁, hrest⟩ := StandAll.exists_cons hcells
    obtain ⟨c₂, _, rfl, -, hrest⟩ := StandAll.exists_cons hrest
    obtain ⟨c₃, _, rfl, hc₃, -⟩ := StandAll.exists_cons hrest
    obtain ⟨src, rfl⟩ := hc₁.exists_value rfl
    obtain ⟨x, rfl, hx⟩ := hname hc₃
    exact ⟨_, _, _, .assignment src c₂ _ hx⟩
  | ret =>
    obtain ⟨c₁, _, rfl, hc₁, hrest⟩ := StandAll.exists_cons hcells
    obtain ⟨c₂, _, rfl, -, -⟩ := StandAll.exists_cons hrest
    obtain ⟨value, rfl⟩ := hc₁.exists_value rfl
    exact ⟨_, _, _, .ret value c₂ _⟩
  | add => exact hbinary .add rfl rfl hcells
  | sub => exact hbinary .sub rfl rfl hcells
  | mul => exact hbinary .mul rfl rfl hcells
  | expression =>
    obtain ⟨c, _, rfl, hc, -⟩ := StandAll.exists_cons hcells
    obtain ⟨value, rfl⟩ := hc.exists_value rfl
    exact ⟨_, _, _, .pass (.inl rfl) value _⟩
  | term =>
    obtain ⟨c, _, rfl, hc, -⟩ := StandAll.exists_cons hcells
    obtain ⟨value, rfl⟩ := hc.exists_value rfl
    exact ⟨_, _, _, .pass (.inr rfl) value _⟩
  | paren =>
    obtain ⟨c₁, _, rfl, -, hrest⟩ := StandAll.exists_cons hcells
    obtain ⟨c₂, _, rfl, hc₂, hrest⟩ := StandAll.exists_cons hrest
    obtain ⟨c₃, _, rfl, -, -⟩ := StandAll.exists_cons hrest
    obtain ⟨value, rfl⟩ := hc₂.exists_value rfl
    exact ⟨_, _, _, .paren value c₃ c₁ _⟩
  | name =>
    obtain ⟨c, _, rfl, hc, -⟩ := StandAll.exists_cons hcells
    obtain ⟨x, rfl, hx⟩ := hname hc
    exact ⟨_, _, _, .name _ hx⟩
  | literal => exact absurd rfl hp
  | program | statementList | lastStatement | declaration | declarator =>
    obtain ⟨front, rest, rfl, hlen, -, -⟩ := StandAll.exists_append hcells
    exact ⟨_, _, _, .bare rfl front rest (hlen.trans (List.length_reverse ..))⟩

/-- **The same for the observer of declarations**, who never refuses anything in a parse. A name
that is declared is one that was shifted. -/
theorem typeReduction_stands {stack : List (Cell SourceType)}
    (hstack : StandAll known Nonterminal.isTyped (p.body.reverse ++ ss) stack) :
    ∃ cell declared rest, (typeReduction p).run stack = (.ok (cell, declared), rest) ∧
      StandAll known Nonterminal.isTyped (.nonterminal p.head :: ss) (cell :: rest) ∧
      ∀ x type, declared = some (x, type) → known (.ident x) := by
  have hdiscard : p.head.isTyped = false → typeReduction p = (do
        discard p
        return (.blank, none)) →
      ∃ cell declared rest, (typeReduction p).run stack = (.ok (cell, declared), rest) ∧
        StandAll known Nonterminal.isTyped (.nonterminal p.head :: ss) (cell :: rest) ∧
        ∀ x type, declared = some (x, type) → known (.ident x) := by
    intro hhead hred
    obtain ⟨front, rest, rfl, hlen, -, hrest⟩ := StandAll.exists_append hstack
    have hlen' : front.length = p.arity := hlen.trans (List.length_reverse ..)
    refine ⟨.blank, none, rest, ?_, .cons hhead hrest, by simp⟩
    rw [hred, Action.run_bind_of_ok (run_discard_append hlen')]
    rfl
  cases p with
  | declarator =>
    obtain ⟨c, rest, rfl, -, hrest⟩ := StandAll.exists_cons hstack
    exact ⟨.value .int, none, rest, rfl, .cons rfl hrest, by simp⟩
  | declaration =>
    obtain ⟨c₁, _, rfl, hc₁, h₁⟩ := StandAll.exists_cons hstack
    obtain ⟨c₂, rest, rfl, hc₂, hrest⟩ := StandAll.exists_cons h₁
    obtain ⟨t, rfl, hkind, ht⟩ := hc₁.exists_token
    obtain ⟨x, rfl⟩ := Token.eq_ident_of_kind hkind
    obtain ⟨type, rfl⟩ := hc₂.exists_value rfl
    refine ⟨.blank, some (x, type), rest, rfl, .cons rfl hrest, ?_⟩
    rintro x' type' ⟨⟩
    exact ht
  | _ => exact hdiscard rfl rfl

/-! ## Events -/

variable {a : Analysis}

/-- A reduction that succeeds on the cells is put into effect. -/
theorem run_codeEmitter_reduce
    (h : (valueReduction a.symbols (.temp a.nextTemp) p).run a.valueCells = (.ok out, rest)) :
    ∃ a', (codeEmitter.notify (.reduce p)).run a = (.ok (), a') ∧
      a'.emission = a.emission.reduce rest out ∧ a'.symbols = a.symbols ∧
      a'.typeCells = a.typeCells := by
  obtain ⟨cell, emitted⟩ := out
  have hvalues : (Analysis.onValues (valueReduction a.symbols (.temp a.nextTemp) p)).run a =
      (.ok (cell, emitted), { a with valueCells := rest }) :=
    Analysis.run_onValues_eq_ok.mpr ⟨rest, h, rfl⟩
  cases emitted with
  | none => exact ⟨_, Action.run_bind_of_ok hvalues _, rfl, rfl, rfl⟩
  | some i =>
    refine ⟨_, Action.run_bind_of_ok hvalues _, ?_, rfl, rfl⟩
    simp [Analysis.emission, Emission.reduce, Analysis.append]

/-- A reduction that fails leaves the cells that it has not taken. -/
theorem run_codeEmitter_reduce_error {err : SemanticError}
    (h : (valueReduction a.symbols (.temp a.nextTemp) p).run a.valueCells = (.error err, rest)) :
    (codeEmitter.notify (.reduce p)).run a = (.error err, { a with valueCells := rest }) := by
  have hvalues : (Analysis.onValues (valueReduction a.symbols (.temp a.nextTemp) p)).run a =
      (.error err, { a with valueCells := rest }) := by
    rw [Action.run, Analysis.onValues, h]
  exact Action.run_bind_of_error hvalues _

theorem Emission.cells_reduce (x : Emission) (rest : List (Cell Operand))
    (out : Cell Operand × Option Instr) : (x.reduce rest out).cells = out.1 :: rest := by
  obtain ⟨cell, _ | i⟩ := out <;> rfl

/-- What an event does to the code when it is not refused. -/
inductive Emission.Step (symbols : SymbolTable) : Event → Emission → Emission → Prop where
  | shift (t : Token) (x : Emission) :
      Step symbols (.shift t) x { x with cells := .token t :: x.cells }
  | reduce {p : Production} {x : Emission} {dropped rest : List (Cell Operand)}
      {out : Cell Operand × Option Instr}
      (reduces : Reduces symbols (.temp x.next) p x.cells dropped out rest) :
      Step symbols (.reduce p) x (x.reduce rest out)
  | accept (x : Emission) (c : Cell Operand) (last : x.cells = [c]) :
      Step symbols .accept x { x with cells := [] }

/-- **How an event ends for the observer that emits code**: it takes a step, or it has only lost
cells. It never touches the symbol table. -/
theorem codeEmitter_ends (e : Event) (a : Analysis) :
    (codeEmitter.notify e).Ends a
      (fun _ a' => a'.symbols = a.symbols ∧ Emission.Step a.symbols e a.emission a'.emission)
      (fun _ a' => a'.symbols = a.symbols ∧
        ∃ rest, rest <:+ a.valueCells ∧ a'.emission = { a.emission with cells := rest }) := by
  cases e with
  | shift t => exact Action.ends_of_ok rfl ⟨rfl, .shift t a.emission⟩
  | reduce p =>
    obtain ⟨hok, herror⟩ := valueReduction_ends a.symbols (.temp a.nextTemp) p a.valueCells
    rcases hrun : (valueReduction a.symbols (.temp a.nextTemp) p).run a.valueCells with
      ⟨err | out, rest⟩
    · exact Action.ends_of_error (run_codeEmitter_reduce_error hrun)
        ⟨rfl, rest, herror err rest hrun, rfl⟩
    · obtain ⟨dropped, hreduces⟩ := hok out rest hrun
      obtain ⟨a', hnotify, hemission, hsymbols, -⟩ := run_codeEmitter_reduce hrun
      refine Action.ends_of_ok hnotify ⟨hsymbols, ?_⟩
      rw [hemission]
      exact .reduce hreduces
  | accept =>
    by_cases hlen : a.valueCells.length = 1
    · obtain ⟨c, hc⟩ := List.length_eq_one_iff.mp hlen
      have htake : takeLast.run a.valueCells = (.ok (), []) := if_pos hlen
      exact Action.ends_of_ok (Analysis.run_onValues_eq_ok.mpr ⟨[], htake, rfl⟩)
        ⟨rfl, .accept a.emission c hc⟩
    · have htake : takeLast.run a.valueCells =
          (.error (.unbalancedAccept a.valueCells.length), a.valueCells) := if_neg hlen
      have hrun : (codeEmitter.notify .accept).run a =
          (.error (.unbalancedAccept a.valueCells.length), a) := by
        change (Analysis.onValues takeLast).run a = _
        rw [Action.run, Analysis.onValues, htake]
      exact Action.ends_of_error hrun ⟨rfl, a.valueCells, List.suffix_refl _, rfl⟩

end StraightLine
