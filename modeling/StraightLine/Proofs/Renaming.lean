import Mathlib
import StraightLine.Compilation
import StraightLine.Proofs.SideBySide
import StraightLine.Proofs.SymbolTable
import StraightLine.Proofs.ViablePrefix

/-!
# Names that correspond

A renaming is a relation `ρ` between the names of one program and those of another. It extends to
everything that has names in it: tokens, variables, instructions, the cells of an observer, and the
errors of all stages. Two such things are renamed if they are the same but for names that `ρ`
relates.

Nothing that happens to tokens depends on how a name is spelled. The parser looks at kinds, and the
observers compare names only with each other, by looking them up. So if `ρ` relates names one to
one, then parses of renamed tokens stay side by side: the same productions, the same code but for
names, the same failure at the same token.

## Main definitions

* `Token.Renamed`, `Event.Renamed`, `Var.Renamed`, `Operand.Renamed`, `Instr.Renamed`,
  `Cell.Renamed` — the same but for names
* `SemanticError.Renamed`, `ParseError.Renamed` — the same for errors
* `SymbolTable.Renamed`, `Analysis.Renamed` — the same for states

## Main results

* `Reading.advance_renamed` — a token leads to the same place, whatever its name
* `Observer.Alike.parse` — observers that are alike end alike
* `typeBinder_alike`, `codeEmitter_alike`, `analyse_renamed`
-/

namespace StraightLine

variable {ρ : String → String → Prop}

/-! ## Tokens, code and cells -/

/-- The same token, or two names. -/
inductive Token.Renamed (ρ : String → String → Prop) : Token → Token → Prop where
  | ident {x y : String} (names : ρ x y) : Renamed ρ (.ident x) (.ident y)
  | same {t : Token} (unnamed : ∀ x, t ≠ .ident x) : Renamed ρ t t

/-- The same event, but for the name of the token that is shifted. -/
inductive Event.Renamed (ρ : String → String → Prop) : Event → Event → Prop where
  | shift {t t' : Token} (token : t.Renamed ρ t') : Renamed ρ (.shift t) (.shift t')
  | reduce (p : Production) : Renamed ρ (.reduce p) (.reduce p)
  | accept : Renamed ρ .accept .accept

/-- The same temporary, or the variables of two names. -/
inductive Var.Renamed (ρ : String → String → Prop) : Var → Var → Prop where
  | named {x y : String} (names : ρ x y) : Renamed ρ (.named x) (.named y)
  | temp (id : UInt32) : Renamed ρ (.temp id) (.temp id)

/-- The same number, or two variables. -/
inductive Operand.Renamed (ρ : String → String → Prop) : Operand → Operand → Prop where
  | imm (value : Int32) : Renamed ρ (.imm value) (.imm value)
  | var {v v' : Var} (vars : v.Renamed ρ v') : Renamed ρ (.var v) (.var v')

/-- The same instruction, but for names. -/
inductive Instr.Renamed (ρ : String → String → Prop) : Instr → Instr → Prop where
  | mov {dest dest' : Var} {src src' : Operand} (dests : dest.Renamed ρ dest')
      (sources : src.Renamed ρ src') : Renamed ρ (.mov dest src) (.mov dest' src')
  | arith (op : ArithOp) {dest dest' : Var} {lhs lhs' rhs rhs' : Operand}
      (dests : dest.Renamed ρ dest') (lefts : lhs.Renamed ρ lhs') (rights : rhs.Renamed ρ rhs') :
      Renamed ρ (.arith op dest lhs rhs) (.arith op dest' lhs' rhs')
  | ret {value value' : Operand} (values : value.Renamed ρ value') :
      Renamed ρ (.ret value) (.ret value')

/-- Two tokens, two values that `V` relates, or twice nothing. -/
inductive Cell.Renamed {α : Type} (ρ : String → String → Prop) (V : α → α → Prop) :
    Cell α → Cell α → Prop where
  | token {t t' : Token} (tokens : t.Renamed ρ t') : Renamed ρ V (.token t) (.token t')
  | value {a a' : α} (values : V a a') : Renamed ρ V (.value a) (.value a')
  | blank : Renamed ρ V .blank .blank

/-- The same error, but for the name in it. -/
inductive SemanticError.Renamed (ρ : String → String → Prop) :
    SemanticError → SemanticError → Prop where
  | undefined {x y : String} (names : ρ x y) : Renamed ρ (.undefined x) (.undefined y)
  | unboundDeclaration {x y : String} (names : ρ x y) :
      Renamed ρ (.unboundDeclaration x) (.unboundDeclaration y)
  | badLiteral (text : String) : Renamed ρ (.badLiteral text) (.badLiteral text)
  | stackUnderflow (p : Production) : Renamed ρ (.stackUnderflow p) (.stackUnderflow p)
  | unexpectedAttribute (p : Production) (expected : String) :
      Renamed ρ (.unexpectedAttribute p expected) (.unexpectedAttribute p expected)
  | unbalancedAccept (cells : Nat) : Renamed ρ (.unbalancedAccept cells) (.unbalancedAccept cells)

/-- The same error, but for the name of the token in it, or two refusals that `E` relates. -/
inductive ParseError.Renamed {ε : Type} (ρ : String → String → Prop) (E : ε → ε → Prop) :
    ParseError ε → ParseError ε → Prop where
  | unexpectedToken (expected : String) {found found' : Token} (tokens : found.Renamed ρ found') :
      Renamed ρ E (.unexpectedToken expected found) (.unexpectedToken expected found')
  | unexpectedEnd : Renamed ρ E .unexpectedEnd .unexpectedEnd
  | action {e e' : ε} (refusals : E e e') : Renamed ρ E (.action e) (.action e')

/-! ## The parser -/

namespace Reading

variable {t t' : Token}

/-- Events that shift no name are related to themselves. -/
theorem forall₂_renamed_self {es : List Event} (h : ∀ x, .shift (.ident x) ∉ es) :
    List.Forall₂ (Event.Renamed ρ) es es := by
  rw [List.forall₂_same]
  intro e he
  cases e with
  | shift t =>
    refine .shift (.same fun x hx => h x ?_)
    rwa [← hx]
  | reduce p => exact .reduce p
  | accept => exact .accept

/-- **A token leads to the same place, whatever its name**, and settles the same events. -/
theorem advance_renamed (h : t.Renamed ρ t') (r : Reading) :
    (r.advance t').progress = (r.advance t).progress ∧
      List.Forall₂ (Event.Renamed ρ) (r.advance t).events (r.advance t').events := by
  cases h with
  | same hunnamed =>
    refine ⟨rfl, forall₂_renamed_self fun x hx => ?_⟩
    have hmem := mem_shiftedTokens.mpr hx
    cases hprogress : (r.advance t).progress with
    | resume r' =>
      rw [(move_of_progress hprogress).shiftedTokens, List.mem_singleton] at hmem
      exact hunnamed x hmem.symm
    | accepted =>
      rw [shiftedTokens_of_stuck (by rw [hprogress]; exact nofun)] at hmem
      cases hmem
    | expected what =>
      rw [shiftedTokens_of_stuck (by rw [hprogress]; exact nofun)] at hmem
      cases hmem
  | @ident x y hxy =>
    -- a name is a statement's target, a declared name or an operand, and fits nowhere else
    obtain ⟨position, n⟩ := r
    have hshift : Event.Renamed ρ (.shift (.ident x)) (.shift (.ident y)) := .shift (.ident hxy)
    cases position with
    | statement => exact ⟨rfl, .cons hshift .nil⟩
    | declaredName => exact ⟨rfl, .cons hshift (.cons (.reduce _) .nil)⟩
    | assignSign => exact ⟨rfl, .nil⟩
    | operand goal slot outer =>
      exact ⟨rfl, .cons hshift (.cons (.reduce _) (.cons (.reduce _) .nil))⟩
    | operator goal term outer =>
      cases outer with
      | nil => exact ⟨rfl, .cons (.reduce _) (.cons (.reduce _) .nil)⟩
      | cons slot outer => exact ⟨rfl, .cons (.reduce _) .nil⟩
    | terminator => exact ⟨rfl, .nil⟩

end Reading

section Parse

variable {σ τ ε : Type} {R : σ → τ → Prop} {E : ε → ε → Prop} {o : Observer σ ε}
  {o' : Observer τ ε} {ts ts' : List Token}

theorem Observer.Alike.parseFrom (ho : Observer.Alike (Event.Renamed ρ) R E o o')
    (h : List.Forall₂ (Token.Renamed ρ) ts ts') (r : Reading) :
    Action.Alike R (ParseError.Renamed ρ E) Eq (r.parseFrom o ts) (r.parseFrom o' ts') := by
  induction h generalizing r with
  | nil => exact .fail .unexpectedEnd
  | @cons t t' ts ts' htoken _ ih =>
    obtain ⟨hprogress, hevents⟩ := r.advance_renamed htoken
    refine ((ho.deliver hevents).mapError fun _ _ he => .action he).bind fun _ _ _ => ?_
    rw [hprogress]
    cases (r.advance t).progress with
    | resume r' => exact ih r'
    | accepted => exact .pure rfl
    | expected what => exact .fail (.unexpectedToken what htoken)

/-- **Observers that are alike end alike** on tokens that are renamed. -/
theorem Observer.Alike.parse (ho : Observer.Alike (Event.Renamed ρ) R E o o')
    (h : List.Forall₂ (Token.Renamed ρ) ts ts') :
    Action.Alike R (ParseError.Renamed ρ E) Eq (parse o ts) (parse o' ts') :=
  ho.parseFrom h Reading.start

end Parse

/-! ## Attribute stacks -/

namespace AttributeStack

variable {α β γ : Type} {V : α → α → Prop}

/-- Two actions on stacks that are the same but for names. -/
abbrev Alike (ρ : String → String → Prop) (V : α → α → Prop) (Q : β → γ → Prop)
    (x : StackAction α β) (y : StackAction α γ) : Prop :=
  Action.Alike (List.Forall₂ (Cell.Renamed ρ V)) (SemanticError.Renamed ρ) Q x y

theorem pop_alike (p : Production) : Alike ρ V (Cell.Renamed ρ V) (pop p) (pop p) := by
  intro cells cells' h
  cases h with
  | nil => exact ⟨.error (.stackUnderflow p), .nil⟩
  | cons hcell hcells => exact ⟨.ok hcell, hcells⟩

theorem popValue_alike (p : Production) (expected : String) :
    Alike ρ V V (popValue p expected) (popValue p expected) := by
  refine (pop_alike p).bind fun c c' hc => ?_
  cases hc with
  | value hvalue => exact .pure hvalue
  | token htoken => exact .fail (.unexpectedAttribute p expected)
  | blank => exact .fail (.unexpectedAttribute p expected)

theorem popToken_alike (p : Production) (expected : String) :
    Alike ρ V (Token.Renamed ρ) (popToken p expected) (popToken p expected) := by
  refine (pop_alike p).bind fun c c' hc => ?_
  cases hc with
  | value hvalue => exact .fail (.unexpectedAttribute p expected)
  | token htoken => exact .pure htoken
  | blank => exact .fail (.unexpectedAttribute p expected)

theorem discard_alike (p : Production) :
    Alike ρ V Eq (AttributeStack.discard p) (AttributeStack.discard p) := by
  intro cells cells' h
  have hlen := h.length_eq
  by_cases hshort : cells.length < p.arity
  · have hrun : (AttributeStack.discard p).run cells = (.error (.stackUnderflow p), cells) :=
      if_pos hshort
    have hrun' : (AttributeStack.discard p).run cells' = (.error (.stackUnderflow p), cells') :=
      if_pos (hlen ▸ hshort)
    rw [hrun, hrun']
    exact ⟨.error (.stackUnderflow p), h⟩
  · have hrun : (AttributeStack.discard p).run cells = (.ok (), cells.drop p.arity) :=
      if_neg hshort
    have hrun' : (AttributeStack.discard p).run cells' = (.ok (), cells'.drop p.arity) :=
      if_neg (hlen ▸ hshort)
    rw [hrun, hrun']
    exact ⟨.ok rfl, List.forall₂_drop _ h⟩

/-- A reduction that only takes cells away and leaves the same behind. -/
theorem discard_return_alike {Q : β → γ → Prop} {b : β} {c : γ} (h : Q b c) (p : Production) :
    Alike ρ V Q (do AttributeStack.discard p; return b) (do AttributeStack.discard p; return c) :=
  (discard_alike p).bind fun _ _ _ => .pure h

theorem takeLast_alike : Alike ρ V Eq takeLast takeLast := by
  intro cells cells' h
  have hlen := h.length_eq
  by_cases hone : cells.length = 1
  · have hrun : takeLast.run cells = (.ok (), []) := if_pos hone
    have hrun' : takeLast.run cells' = (.ok (), []) := if_pos (hlen ▸ hone)
    rw [hrun, hrun']
    exact ⟨.ok rfl, .nil⟩
  · have hrun : takeLast.run cells = (.error (.unbalancedAccept cells.length), cells) :=
      if_neg hone
    have hrun' : takeLast.run cells' = (.error (.unbalancedAccept cells.length), cells') := by
      rw [hlen]
      exact if_neg (hlen ▸ hone)
    rw [hrun, hrun']
    exact ⟨.error (.unbalancedAccept _), h⟩

end AttributeStack

/-! ## Symbol tables -/

namespace SymbolTable

variable {s s' : SymbolTable} {x y : String}

/-- Names that correspond have the same entries. -/
def Renamed (ρ : String → String → Prop) (s s' : SymbolTable) : Prop :=
  ∀ x y, ρ x y → s'.find? y = s.find? x

theorem Renamed.contains_eq (h : s.Renamed ρ s') (hxy : ρ x y) : s'.contains y = s.contains x := by
  rw [contains, contains, h x y hxy]

/-- Names that correspond one to one can be given types. -/
theorem Renamed.declare (h : s.Renamed ρ s') (hρ : Relator.BiUnique ρ) (hxy : ρ x y)
    (type : SourceType) : (s.declare x type).Renamed ρ (s'.declare y type) := by
  intro x₁ y₁ hxy₁
  have hsame : x₁ = x ↔ y₁ = y := Relator.rel_eq hρ hxy₁ hxy
  rw [find?_declare, find?_declare, h x₁ y₁ hxy₁]
  by_cases hx : x₁ = x
  · rw [if_pos hx, if_pos (hsame.mp hx)]
  · rw [if_neg hx, if_neg (mt hsame.mpr hx)]

end SymbolTable

/-! ## Reductions -/

section Reductions

open AttributeStack

variable {symbols symbols' : SymbolTable} {temp temp' : Var}

/-- A cell and perhaps an instruction, the same but for names. -/
def ValueRenamed (ρ : String → String → Prop) (out out' : Cell Operand × Option Instr) : Prop :=
  out.1.Renamed ρ (Operand.Renamed ρ) out'.1 ∧ Option.Rel (Instr.Renamed ρ) out.2 out'.2

theorem popName_alike (p : Production) :
    Alike ρ (Operand.Renamed ρ) ρ (popName p) (popName p) := by
  refine (popToken_alike p _).bind fun t t' ht => ?_
  cases ht with
  | ident hxy => exact .pure hxy
  | same hunnamed =>
    cases t with
    | ident x => exact absurd rfl (hunnamed x)
    | _ => exact .fail (.unexpectedAttribute p _)

theorem resolve_alike (hsymbols : symbols.Renamed ρ symbols') {x y : String} (hxy : ρ x y) :
    Alike ρ (Operand.Renamed ρ) (Var.Renamed ρ) (resolve symbols x) (resolve symbols' y) := by
  rw [resolve, resolve, hsymbols.contains_eq hxy]
  split
  · exact .pure (.named hxy)
  · exact .fail (.undefined hxy)

theorem arithReduction_alike (htemp : temp.Renamed ρ temp') (op : ArithOp) (p : Production) :
    Alike ρ (Operand.Renamed ρ) (ValueRenamed ρ) (arithReduction temp op p)
      (arithReduction temp' op p) := by
  refine (popValue_alike p _).bind fun rhs rhs' hrhs => ?_
  refine (pop_alike p).bind fun _ _ _ => ?_
  refine (popValue_alike p _).bind fun lhs lhs' hlhs => ?_
  exact .pure ⟨.value (.var htemp), .some (.arith op htemp hlhs hrhs)⟩

/-- **A reduction does the same, but for names**, if the tables have the same entries for names that
correspond. -/
theorem valueReduction_alike (hsymbols : symbols.Renamed ρ symbols')
    (htemp : temp.Renamed ρ temp') (p : Production) :
    Alike ρ (Operand.Renamed ρ) (ValueRenamed ρ) (valueReduction symbols temp p)
      (valueReduction symbols' temp' p) := by
  have hpass : ∀ p, Alike ρ (Operand.Renamed ρ) (ValueRenamed ρ)
      (do let value ← popValue p "a value"; return (.value value, none))
      (do let value ← popValue p "a value"; return (.value value, none)) := fun p =>
    (popValue_alike p _).bind fun _ _ hvalue => .pure ⟨.value hvalue, .none⟩
  cases p with
  | assignment =>
    refine (popValue_alike _ _).bind fun src src' hsrc => ?_
    refine (pop_alike _).bind fun _ _ _ => ?_
    refine (popName_alike _).bind fun x y hxy => ?_
    refine (resolve_alike hsymbols hxy).bind fun dest dest' hdest => ?_
    exact .pure ⟨.blank, .some (.mov hdest hsrc)⟩
  | ret =>
    refine (popValue_alike _ _).bind fun value value' hvalue => ?_
    refine (pop_alike _).bind fun _ _ _ => ?_
    exact .pure ⟨.blank, .some (.ret hvalue)⟩
  | add => exact arithReduction_alike htemp .add _
  | sub => exact arithReduction_alike htemp .sub _
  | mul => exact arithReduction_alike htemp .mul _
  | expression => exact hpass _
  | term => exact hpass _
  | paren =>
    refine (pop_alike _).bind fun _ _ _ => ?_
    refine (popValue_alike _ _).bind fun value value' hvalue => ?_
    refine (pop_alike _).bind fun _ _ _ => ?_
    exact .pure ⟨.value hvalue, .none⟩
  | name =>
    refine (popName_alike _).bind fun x y hxy => ?_
    refine (resolve_alike hsymbols hxy).bind fun v v' hv => ?_
    exact .pure ⟨.value (.var hv), .none⟩
  | literal =>
    refine (popToken_alike _ _).bind fun t t' ht => ?_
    cases ht with
    | ident hxy => exact .fail (.unexpectedAttribute _ _)
    | same hunnamed =>
      cases t with
      | literal text =>
        dsimp only
        cases Decimal.toInt32? text with
        | some value => exact .pure ⟨.value (.imm value), .none⟩
        | none => exact .fail (.badLiteral text)
      | _ => exact .fail (.unexpectedAttribute _ _)
  | program => exact discard_return_alike ⟨.blank, .none⟩ _
  | statementList => exact discard_return_alike ⟨.blank, .none⟩ _
  | lastStatement => exact discard_return_alike ⟨.blank, .none⟩ _
  | declaration => exact discard_return_alike ⟨.blank, .none⟩ _
  | declarator => exact discard_return_alike ⟨.blank, .none⟩ _

/-- A cell and perhaps a declaration, the same but for names. -/
def TypeRenamed (ρ : String → String → Prop)
    (out out' : Cell SourceType × Option (String × SourceType)) : Prop :=
  out.1.Renamed ρ Eq out'.1 ∧ Option.Rel (fun d d' => ρ d.1 d'.1 ∧ d.2 = d'.2) out.2 out'.2

theorem popDeclaredName_alike (p : Production) :
    Alike ρ Eq ρ (popDeclaredName p) (popDeclaredName p) := by
  refine (pop_alike p).bind fun c c' hc => ?_
  cases hc with
  | value hvalue => exact .fail (.unexpectedAttribute p _)
  | blank => exact .fail (.unexpectedAttribute p _)
  | @token t _ htoken =>
    cases htoken with
    | ident hxy => exact .pure hxy
    | same hunnamed =>
      cases t with
      | ident x => exact absurd rfl (hunnamed x)
      | _ => exact .fail (.unexpectedAttribute p _)

theorem typeReduction_alike (p : Production) :
    Alike ρ Eq (TypeRenamed ρ) (typeReduction p) (typeReduction p) := by
  cases p with
  | declarator => exact (pop_alike _).bind fun _ _ _ => .pure ⟨.value rfl, .none⟩
  | declaration =>
    refine (popDeclaredName_alike _).bind fun x y hxy => ?_
    refine (popValue_alike _ _).bind fun type type' htype => ?_
    exact .pure ⟨.blank, .some ⟨hxy, htype⟩⟩
  | _ => exact discard_return_alike ⟨.blank, .none⟩ _

end Reductions

/-! ## Observers -/

/-- Two analyses that are the same but for names. -/
structure Analysis.Renamed (ρ : String → String → Prop) (a a' : Analysis) : Prop where
  /-- The symbol tables. -/
  symbols : a.symbols.Renamed ρ a'.symbols
  /-- The cells of the observers of declarations. -/
  typeCells : List.Forall₂ (Cell.Renamed ρ Eq) a.typeCells a'.typeCells
  /-- The cells of the observers that emit code. -/
  valueCells : List.Forall₂ (Cell.Renamed ρ (Operand.Renamed ρ)) a.valueCells a'.valueCells
  /-- The code. -/
  code : List.Forall₂ (Instr.Renamed ρ) a.code.toList a'.code.toList
  /-- The next temporaries. -/
  nextTemp : a'.nextTemp = a.nextTemp

namespace Analysis

variable {α β : Type} {Q : α → β → Prop}

/-- Two steps of an analysis that are the same but for names. -/
abbrev Alike (ρ : String → String → Prop) (Q : α → β → Prop)
    (x : Action Analysis SemanticError α) (y : Action Analysis SemanticError β) : Prop :=
  Action.Alike (Analysis.Renamed ρ) (SemanticError.Renamed ρ) Q x y

theorem onTypes_alike {x : StackAction SourceType α} {y : StackAction SourceType β}
    (h : AttributeStack.Alike ρ Eq Q x y) : Alike ρ Q (onTypes x) (onTypes y) := by
  intro a a' ha
  obtain ⟨hend, hcells⟩ := h ha.typeCells
  exact ⟨hend, ⟨ha.symbols, hcells, ha.valueCells, ha.code, ha.nextTemp⟩⟩

theorem onValues_alike {x : StackAction Operand α} {y : StackAction Operand β}
    (h : AttributeStack.Alike ρ (Operand.Renamed ρ) Q x y) :
    Alike ρ Q (onValues x) (onValues y) := by
  intro a a' ha
  obtain ⟨hend, hcells⟩ := h ha.valueCells
  exact ⟨hend, ⟨ha.symbols, ha.typeCells, hcells, ha.code, ha.nextTemp⟩⟩

theorem pushType_alike {c c' : Cell SourceType} (h : c.Renamed ρ Eq c') :
    Alike ρ Eq (pushType c) (pushType c') :=
  .modify fun _ _ ha => ⟨ha.symbols, .cons h ha.typeCells, ha.valueCells, ha.code, ha.nextTemp⟩

theorem pushValue_alike {c c' : Cell Operand} (h : c.Renamed ρ (Operand.Renamed ρ) c') :
    Alike ρ Eq (pushValue c) (pushValue c') :=
  .modify fun _ _ ha => ⟨ha.symbols, ha.typeCells, .cons h ha.valueCells, ha.code, ha.nextTemp⟩

theorem bindType_alike (hρ : Relator.BiUnique ρ) {x y : String} (hxy : ρ x y)
    (type : SourceType) : Alike ρ Eq (bindType x type) (bindType y type) := by
  intro a a' ha
  have hfind := ha.symbols x y hxy
  rw [Action.run, Action.run, bindType, bindType, hfind]
  cases a.symbols.find? x with
  | none => exact ⟨.error (.unboundDeclaration hxy), ha⟩
  | some previous =>
    exact ⟨.ok rfl, ha.symbols.declare hρ hxy type, ha.typeCells, ha.valueCells, ha.code,
      ha.nextTemp⟩

theorem append_renamed {a a' : Analysis} (ha : a.Renamed ρ a') {i i' : Instr}
    (hi : i.Renamed ρ i') : (a.append i).Renamed ρ (a'.append i') := by
  refine ⟨ha.symbols, ha.typeCells, ha.valueCells, ?_, ?_⟩
  · simp only [append, Array.toList_push]
    exact List.rel_append ha.code (.cons hi .nil)
  · have harith : i'.isArith = i.isArith := by cases hi <;> rfl
    simp only [append, harith, ha.nextTemp]

end Analysis

open Analysis

/-- The observer of declarations, told events that are renamed. -/
theorem typeBinder_alike (hρ : Relator.BiUnique ρ) :
    Observer.Alike (Event.Renamed ρ) (Analysis.Renamed ρ) (SemanticError.Renamed ρ) typeBinder
      typeBinder := by
  intro e e' he
  cases he with
  | shift htoken => exact pushType_alike (.token htoken)
  | accept => exact onTypes_alike AttributeStack.takeLast_alike
  | reduce p =>
    refine (onTypes_alike (typeReduction_alike p)).bind fun out out' hout => ?_
    obtain ⟨cell, declared⟩ := out
    obtain ⟨cell', declared'⟩ := out'
    obtain ⟨hcell, hdeclared⟩ := hout
    cases hdeclared with
    | none => exact pushType_alike hcell
    | @some d d' hd =>
      obtain ⟨x, type⟩ := d
      obtain ⟨y, type'⟩ := d'
      obtain ⟨hxy, rfl⟩ := hd
      exact (bindType_alike hρ hxy type).bind fun _ _ _ => pushType_alike hcell

/-- The observer that emits code, told events that are renamed. -/
theorem codeEmitter_alike :
    Observer.Alike (Event.Renamed ρ) (Analysis.Renamed ρ) (SemanticError.Renamed ρ) codeEmitter
      codeEmitter := by
  intro e e' he
  cases he with
  | shift htoken => exact pushValue_alike (.token htoken)
  | accept => exact onValues_alike AttributeStack.takeLast_alike
  | reduce p =>
    refine (Action.Alike.inspect fun a a' ha => ha.symbols).bind fun symbols symbols' hsymbols => ?_
    have htemps : ∀ a a' : Analysis, a.Renamed ρ a' →
        (Var.temp a.nextTemp).Renamed ρ (.temp a'.nextTemp) := by
      intro a a' ha
      rw [ha.nextTemp]
      exact .temp _
    refine (Action.Alike.inspect htemps).bind fun temp temp' htemp => ?_
    refine (onValues_alike (valueReduction_alike hsymbols htemp p)).bind fun out out' hout => ?_
    obtain ⟨cell, emitted⟩ := out
    obtain ⟨cell', emitted'⟩ := out'
    obtain ⟨hcell, hemitted⟩ := hout
    cases hemitted with
    | none => exact pushValue_alike hcell
    | some hi =>
      exact (Action.Alike.modify fun a a' ha => append_renamed ha hi).bind fun _ _ _ =>
        pushValue_alike hcell

/-- **Analyses of renamed tokens stay side by side.** -/
theorem analyse_renamed (hρ : Relator.BiUnique ρ) {ts ts' : List Token} {s s' : SymbolTable}
    (hts : List.Forall₂ (Token.Renamed ρ) ts ts') (hs : s.Renamed ρ s') :
    BothEnd (ParseError.Renamed ρ (SemanticError.Renamed ρ)) Eq (analyse ts s).1
        (analyse ts' s').1 ∧
      (analyse ts s).2.Renamed ρ (analyse ts' s').2 := by
  have hanalyst : Observer.Alike (Event.Renamed ρ) (Analysis.Renamed ρ) (SemanticError.Renamed ρ)
      analyst analyst :=
    ((typeBinder_alike hρ).both codeEmitter_alike).noting fun _ _ _ _ ha =>
      ⟨ha.symbols, ha.typeCells, ha.valueCells, ha.code, ha.nextTemp⟩
  exact hanalyst.parse hts ⟨hs, .nil, .nil, .nil, rfl⟩

end StraightLine
