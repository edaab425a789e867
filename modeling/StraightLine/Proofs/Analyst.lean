import Mathlib
import StraightLine.Proofs.Reductions
import StraightLine.Proofs.SymbolTable

/-!
# What the analysis of a parse can refuse

The two observers of an analysis check everything that they find on their stacks. In a parse these
checks never fail, because both stacks stand for the symbols of the parse, cell by cell: the
observers are attuned to it. The names are in the symbol table from the start. So all that can be
refused is a literal that denotes no word, and it is refused as soon as it has been shifted.

Tokens that may be shifted are called known here. What is asked of them is that the table has the
names among them, and that the literals among them denote words.

## Main definitions

* `Harmless` — what is asked of the known tokens
* `Analysis.Attuned` — both stacks stand for the symbols of the parse

## Main results

* `names_typeBinder` — the names of the table stay the same
* `Analysis.Attuned.notify`, `Analysis.Attuned.deliver` — events that fit are not refused
* `Analysis.refuses_literal` — a literal that denotes no word is
-/

namespace StraightLine

open AttributeStack Cell

variable {known : Token → Prop} {ss ss' : List GrammarSymbol} {e : Event} {a : Analysis}

/-! ## The observer of declarations -/

/-- A name in the table can be given a type. -/
theorem exists_run_bindType {x : String} (hx : a.symbols.contains x = true) (type : SourceType) :
    ∃ log, (Analysis.bindType x type).run a =
      (.ok (), { a with symbols := a.symbols.declare x type, log }) := by
  obtain ⟨hok, herror⟩ := Analysis.bindType_ends x type a
  rcases hrun : (Analysis.bindType x type).run a with ⟨err | ⟨⟩, a'⟩
  · have habsent := (herror err a' hrun).1
    rw [hx] at habsent
    cases habsent
  · obtain ⟨-, log, rfl⟩ := hok () a' hrun
    exact ⟨log, rfl⟩

theorem names_bindType (x : String) (type : SourceType) (a : Analysis) :
    ((Analysis.bindType x type).run a).2.symbols.names = a.symbols.names := by
  obtain ⟨hok, herror⟩ := Analysis.bindType_ends x type a
  rcases hrun : (Analysis.bindType x type).run a with ⟨err | ⟨⟩, a'⟩
  · rw [(herror err a' hrun).2]
  · obtain ⟨-, log, rfl⟩ := hok () a' hrun
    exact SymbolTable.names_declare

/-- **The observer of declarations adds no name** to the table and loses none, whatever it is told
and also where it refuses. -/
theorem names_typeBinder (e : Event) (a : Analysis) :
    ((typeBinder.notify e).run a).2.symbols.names = a.symbols.names := by
  cases e with
  | shift t => rfl
  | accept => rfl
  | reduce p =>
    have hkept : ((Analysis.onTypes (typeReduction p)).run a).2.symbols = a.symbols := rfl
    rcases hred : (Analysis.onTypes (typeReduction p)).run a with ⟨err | ⟨cell, declared⟩, b⟩
    · rw [hred] at hkept
      have hrun : (typeBinder.notify (.reduce p)).run a = (.error err, b) :=
        Action.run_bind_of_error hred _
      rw [hrun, hkept]
    · rw [hred] at hkept
      rw [← hkept]
      cases declared with
      | none =>
        have hrun : (typeBinder.notify (.reduce p)).run a = (Analysis.pushType cell).run b :=
          Action.run_bind_of_ok hred _
        rw [hrun]
        rfl
      | some binding =>
        obtain ⟨x, type⟩ := binding
        have hnames := names_bindType x type b
        have hrun : (typeBinder.notify (.reduce p)).run a =
            (Analysis.bindType x type >>= fun _ => Analysis.pushType cell).run b :=
          Action.run_bind_of_ok hred _
        rw [hrun, ← hnames]
        rcases hbind : (Analysis.bindType x type).run b with ⟨err | ⟨⟩, c⟩
        · rw [Action.run_bind_of_error hbind]
        · rw [Action.run_bind_of_ok hbind]
          rfl

/-- The observer of declarations refuses nothing in a parse. -/
theorem exists_run_typeBinder (htypes : StandAll known Nonterminal.isTyped ss a.typeCells)
    (hnames : ∀ x, known (.ident x) → a.symbols.contains x = true) (hfits : e.Fits ss ss')
    (hshift : ∀ t, e = .shift t → known t) :
    ∃ a', (typeBinder.notify e).run a = (.ok (), a') ∧
      StandAll known Nonterminal.isTyped ss' a'.typeCells ∧ a'.valueCells = a.valueCells ∧
      ∀ x, a'.symbols.contains x = true ↔ a.symbols.contains x = true := by
  cases hfits with
  | shift t ss => exact ⟨_, rfl, .cons ⟨rfl, hshift t rfl⟩ htypes, rfl, fun _ => Iff.rfl⟩
  | accept =>
    obtain ⟨c, rest, hcells, -, hrest⟩ := StandAll.exists_cons htypes
    obtain rfl := List.forall₂_nil_left_iff.mp hrest
    have htake : takeLast.run a.typeCells = (.ok (), []) := by
      rw [hcells]
      rfl
    exact ⟨_, Analysis.run_onTypes_eq_ok.mpr ⟨[], htake, rfl⟩, .nil, rfl, fun _ => Iff.rfl⟩
  | reduce p ss =>
    obtain ⟨cell, declared, rest, hrun, hstands, hdeclared⟩ := typeReduction_stands htypes
    have hred : (Analysis.onTypes (typeReduction p)).run a =
        (.ok (cell, declared), { a with typeCells := rest }) :=
      Analysis.run_onTypes_eq_ok.mpr ⟨rest, hrun, rfl⟩
    cases declared with
    | none => exact ⟨_, Action.run_bind_of_ok hred _, hstands, rfl, fun _ => Iff.rfl⟩
    | some binding =>
      obtain ⟨x, type⟩ := binding
      have hx := hnames x (hdeclared x type rfl)
      obtain ⟨log, hbind⟩ := exists_run_bindType (a := { a with typeCells := rest }) hx type
      exact ⟨_, (Action.run_bind_of_ok hred _).trans (Action.run_bind_of_ok hbind _), hstands, rfl,
        fun _ => SymbolTable.contains_declare⟩

/-! ## The observer that emits code -/

/-- What is asked of the known tokens: the literals among them denote words. -/
def Harmless (known : Token → Prop) : Prop :=
  ∀ text, known (.literal text) → ∃ value, Decimal.toInt32? text = some value

/-- The observer that emits code refuses nothing in a parse with harmless literals. -/
theorem exists_run_codeEmitter (hvalues : StandAll known Nonterminal.isValued ss a.valueCells)
    (hnames : ∀ x, known (.ident x) → a.symbols.contains x = true) (hharmless : Harmless known)
    (hfits : e.Fits ss ss') (hshift : ∀ t, e = .shift t → known t) :
    ∃ a', (codeEmitter.notify e).run a = (.ok (), a') ∧
      StandAll known Nonterminal.isValued ss' a'.valueCells ∧ a'.typeCells = a.typeCells ∧
      a'.symbols = a.symbols := by
  cases hfits with
  | shift t ss => exact ⟨_, rfl, .cons ⟨rfl, hshift t rfl⟩ hvalues, rfl, rfl⟩
  | accept =>
    obtain ⟨c, rest, hcells, -, hrest⟩ := StandAll.exists_cons hvalues
    obtain rfl := List.forall₂_nil_left_iff.mp hrest
    have htake : takeLast.run a.valueCells = (.ok (), []) := by
      rw [hcells]
      rfl
    exact ⟨_, Analysis.run_onValues_eq_ok.mpr ⟨[], htake, rfl⟩, .nil, rfl, rfl⟩
  | reduce p ss =>
    have hreduces : ∃ dropped out rest,
        Reduces a.symbols (.temp a.nextTemp) p a.valueCells dropped out rest := by
      by_cases hp : p = .literal
      · subst hp
        obtain ⟨c, rest, hcells, hc, -⟩ := StandAll.exists_cons hvalues
        obtain ⟨t, rfl, hkind, ht⟩ := hc.exists_token
        obtain ⟨text, rfl⟩ := Token.eq_literal_of_kind hkind
        obtain ⟨value, hvalue⟩ := hharmless text ht
        rw [hcells]
        exact ⟨_, _, _, .literal rest hvalue⟩
      · exact exists_reduces _ hvalues hnames hp
    obtain ⟨dropped, out, rest, hreduces⟩ := hreduces
    obtain ⟨a', hrun, hemission, hsymbols, htypes⟩ := run_codeEmitter_reduce hreduces.run_eq
    refine ⟨a', hrun, ?_, htypes, hsymbols⟩
    have hcells : a'.valueCells = out.1 :: rest :=
      (congrArg Emission.cells hemission).trans (a.emission.cells_reduce rest out)
    rw [hcells]
    exact (hreduces.stands hvalues).1

/-! ## Both -/

namespace Analysis

/-- Both stacks stand for the symbols of a parse, and the table has the known names. -/
structure Attuned (known : Token → Prop) (ss : List GrammarSymbol) (a : Analysis) : Prop where
  /-- The stack of the observer of declarations. -/
  types : StandAll known Nonterminal.isTyped ss a.typeCells
  /-- The stack of the observer that emits code. -/
  values : StandAll known Nonterminal.isValued ss a.valueCells
  /-- The known names. -/
  names : ∀ x, known (.ident x) → a.symbols.contains x = true

/-- An event is logged and then told to both observers. -/
theorem run_analyst_of_ok {b : Analysis}
    (htypes : (typeBinder.notify e).run { a with log := a.log.push (.event e) } = (.ok (), b)) :
    (analyst.notify e).run a = (codeEmitter.notify e).run b := by
  refine (Action.run_bind_of_ok (Action.run_modify _ a) _).trans ?_
  exact Action.run_bind_of_ok htypes _

/-- **An event of a parse is not refused.** -/
theorem Attuned.notify (h : a.Attuned known ss) (hharmless : Harmless known)
    (hfits : e.Fits ss ss') (hshift : ∀ t, e = .shift t → known t) :
    ∃ a', (analyst.notify e).run a = (.ok (), a') ∧ a'.Attuned known ss' := by
  obtain ⟨b, hb, htypes, hvalues, hsymbols⟩ :=
    exists_run_typeBinder (a := { a with log := a.log.push (.event e) }) h.types h.names hfits
      hshift
  have hnames : ∀ x, known (.ident x) → b.symbols.contains x = true := fun x hx =>
    (hsymbols x).mpr (h.names x hx)
  have hvalues' : StandAll known Nonterminal.isValued ss b.valueCells := by
    rw [hvalues]
    exact h.values
  obtain ⟨a', ha', hstands, htypes', hsymbols'⟩ :=
    exists_run_codeEmitter hvalues' hnames hharmless hfits hshift
  refine ⟨a', (run_analyst_of_ok hb).trans ha', ?_, hstands, ?_⟩
  · rw [htypes']
    exact htypes
  · rw [hsymbols']
    exact hnames

/-- **No event of a parse is refused** if the tokens that it shifts are known. -/
theorem Attuned.deliver {es : List Event} (h : a.Attuned known ss) (hharmless : Harmless known)
    (hfit : Event.FitAll es ss ss') (hshift : ∀ t, .shift t ∈ es → known t) :
    ∃ a', (analyst.deliver es).run a = (.ok (), a') ∧ a'.Attuned known ss' := by
  induction hfit generalizing a with
  | nil ss => exact ⟨a, rfl, h⟩
  | cons first _ ih =>
    obtain ⟨b, hb, hattuned⟩ := h.notify hharmless first fun t ht => hshift t (by simp [ht])
    obtain ⟨a', ha', hattuned'⟩ := ih hattuned fun t ht => hshift t (List.mem_cons_of_mem _ ht)
    exact ⟨a', (Action.run_bind_of_ok hb _).trans ha', hattuned'⟩

/-- **A literal that denotes no word is refused** when it is reduced, whatever is on the stacks. -/
theorem refuses_literal (a : Analysis) {text : String} (htext : Decimal.toInt32? text = none)
    (es : List Event) :
    ∃ a', (analyst.deliver (.shift (.literal text) :: .reduce .literal :: es)).run a =
      (.error (.badLiteral text), a') := by
  -- both stacks behind the shift
  let b : Analysis := { a with
    log := a.log.push (.event (.shift (.literal text)))
    typeCells := .token (.literal text) :: a.typeCells
    valueCells := .token (.literal text) :: a.valueCells }
  have hshift : (analyst.notify (.shift (.literal text))).run a = (.ok (), b) := rfl
  have hdiscard : (AttributeStack.discard .literal).run
      ([Cell.token (.literal text)] ++ a.typeCells) = (.ok (), a.typeCells) :=
    run_discard_append rfl
  have htypes : (Analysis.onTypes (typeReduction .literal)).run
      { b with log := b.log.push (.event (.reduce .literal)) } = (.ok (.blank, none), _) :=
    Analysis.run_onTypes_eq_ok.mpr ⟨a.typeCells, Action.run_bind_of_ok hdiscard _, rfl⟩
  have hreduce : (analyst.notify (.reduce .literal)).run b = (.error (.badLiteral text), _) :=
    (run_analyst_of_ok (Action.run_bind_of_ok htypes _)).trans
      (run_codeEmitter_reduce_error (run_literal_none htext a.valueCells))
  exact ⟨_, (Action.run_bind_of_ok hshift _).trans (Action.run_bind_of_error hreduce _)⟩

end Analysis

end StraightLine
