import Mathlib
import StraightLine.Proofs.Outcome
import StraightLine.Proofs.ShiftReduce
import StraightLine.Proofs.StackDiscipline

/-!
# Which names have a type

The observer of declarations sees events and its own stack. That it gives the type to the right name
is a matter of the parse: a declaration is reduced right behind its name, and right in front of the
name stands `int`, which has left the type on the stack. So a name has a type exactly if it had one
before, or if `int` stands in front of it somewhere among the tokens that were shifted.

This is so however a parse ends. A token that does not fit completes no declaration. Where the other
observer refuses an event, that event has been told to the observer of declarations already, so no
declaration is lost either.

## Main definitions

* `Declares` — a name stands right behind `int`
* `SymbolTable.TypedBy` — a table with the types that were given, and with those of declared names
* `Follows` — what is true of an analysis and of what it was told, at a position of the parse

## Main results

* `Follows.step`, `Follows.deliver` — one token, and a whole parse
* `Program.declares_tokens` — the names that the statements of a program declare
* `declared_names_have_types` — the table behind a parse, and the table of a compilation
-/

namespace StraightLine

open AttributeStack Cell

/-! ## Declared names -/

/-- The name stands right behind `int`. -/
def Declares (ts : List Token) (x : String) : Prop :=
  [.keyword .int, .ident x] <:+: ts

instance (ts : List Token) (x : String) : Decidable (Declares ts x) :=
  inferInstanceAs (Decidable (_ <:+: _))

theorem not_declares_nil (x : String) : ¬ Declares [] x := by
  simp [Declares]

/-- One more token declares a name if it is that name and the last one before it was `int`. -/
theorem declares_concat {ts : List Token} {t : Token} {x : String} :
    Declares (ts ++ [t]) x ↔
      Declares ts x ∨ ts.getLast? = some (.keyword .int) ∧ t = .ident x := by
  have hpair : [.keyword .int, .ident x] <:+ ts ++ [t] ↔
      ts.getLast? = some (.keyword .int) ∧ t = .ident x := by
    rw [List.getLast?_eq_some_iff]
    constructor
    · rintro ⟨front, hfront⟩
      have hsplit : (front ++ [.keyword .int]) ++ [.ident x] = ts ++ [t] := by simpa using hfront
      obtain ⟨hts, ht⟩ := List.append_inj' hsplit rfl
      exact ⟨⟨front, hts.symm⟩, (List.cons.inj ht).1.symm⟩
    · rintro ⟨⟨front, rfl⟩, rfl⟩
      exact ⟨front, by simp⟩
  rw [Declares, List.infix_concat_iff, hpair, or_comm, Declares]

theorem declares_append_eof {ts : List Token} {x : String} :
    Declares (ts ++ [.eof]) x ↔ Declares ts x := by
  simp [declares_concat]

/-- The table has the names of another, and the types of that other with those of the names that
tokens declare. -/
structure SymbolTable.TypedBy (given : SymbolTable) (ts : List Token) (s : SymbolTable) :
    Prop where
  /-- The names are the same. -/
  names : s.names = given.names
  /-- A name has a type if it had one or is declared. -/
  typed_iff : ∀ x, s.find? x = some (some .int) ↔ given.find? x = some (some .int) ∨ Declares ts x

namespace SymbolTable.TypedBy

variable {given s : SymbolTable} {ts : List Token} {t : Token} {x : String}

theorem refl (given : SymbolTable) : TypedBy given [] given :=
  ⟨rfl, fun x => (or_iff_left (not_declares_nil x)).symm⟩

theorem contains_iff (h : TypedBy given ts s) : s.contains x = true ↔ given.contains x = true := by
  rw [SymbolTable.contains_iff, SymbolTable.contains_iff, h.names]

/-- A token that declares nothing, if it comes at all. -/
theorem append_of_prefix {us : List Token} (h : TypedBy given ts s)
    (hlast : ts.getLast? ≠ some (.keyword .int)) (hus : us <+: [t]) :
    TypedBy given (ts ++ us) s := by
  rcases List.prefix_cons_iff.mp hus with rfl | ⟨us, rfl, hnil⟩
  · rwa [List.append_nil]
  · obtain rfl := List.prefix_nil.mp hnil
    refine ⟨h.names, fun x => ?_⟩
    rw [h.typed_iff, declares_concat]
    simp [hlast]

/-- A name that is declared. -/
theorem declare (h : TypedBy given ts s) (hlast : ts.getLast? = some (.keyword .int))
    (hx : s.contains x = true) : TypedBy given (ts ++ [.ident x]) (s.declare x .int) := by
  refine ⟨names_declare.trans h.names, fun y => ?_⟩
  rw [find?_declare, declares_concat]
  by_cases hy : y = x
  · obtain ⟨previous, hfind⟩ := Option.isSome_iff_exists.mp hx
    subst hy
    rw [if_pos rfl, show s.find? y = some previous from hfind]
    simp [hlast]
  · have hne : Token.ident x ≠ .ident y := fun heq => hy (Token.ident.inj heq).symm
    rw [if_neg hy, h.typed_iff]
    simp [hne]

end SymbolTable.TypedBy

/-! ## What an event does to the table -/

variable {given : SymbolTable} {a a' : Analysis} {e : Event} {es : List Event} {x : String}

/-- Only declarations declare names. -/
theorem typeReduction_declares {p : Production} {cells rest : List (Cell SourceType)}
    {cell : Cell SourceType} {binding : String × SourceType}
    (h : (typeReduction p).run cells = (.ok (cell, some binding), rest)) : p = .declaration := by
  have hdiscard : ∀ q : Production, (do
      AttributeStack.discard q
      return (Cell.blank, (none : Option (String × SourceType)))).run cells ≠
        (.ok (cell, some binding), rest) := by
    intro q hq
    obtain ⟨_, _, -, hpure⟩ := Action.run_bind_eq_ok.mp hq
    cases hpure
  cases p with
  | declaration => rfl
  | declarator =>
    obtain ⟨_, _, -, hpure⟩ := Action.run_bind_eq_ok.mp h
    cases hpure
  | _ => exact absurd h (hdiscard _)

/-- The observer of declarations changes the table only where a declaration is reduced. -/
theorem symbols_typeBinder (he : e ≠ .reduce .declaration) (a : Analysis) :
    ((typeBinder.notify e).run a).2.symbols = a.symbols := by
  cases e with
  | shift t => rfl
  | accept => rfl
  | reduce p =>
    have honTypes := Analysis.run_onTypes (typeReduction p) a
    rcases hred : (typeReduction p).run a.typeCells with ⟨err | ⟨cell, _ | binding⟩, rest⟩
    · rw [hred] at honTypes
      have hrun : (typeBinder.notify (.reduce p)).run a =
          (.error err, { a with typeCells := rest }) := Action.run_bind_of_error honTypes _
      rw [hrun]
    · rw [hred] at honTypes
      have hrun : (typeBinder.notify (.reduce p)).run a =
          (.ok (), { a with typeCells := cell :: rest }) := Action.run_bind_of_ok honTypes _
      rw [hrun]
    · exact absurd (congrArg Event.reduce (typeReduction_declares hred)) he

/-- What both observers do to the table and to the first stack is done by the first of them. -/
theorem symbols_analyst (e : Event) (a : Analysis) :
    let b := { a with log := a.log.push (.event e) }
    ((analyst.notify e).run a).2.symbols = ((typeBinder.notify e).run b).2.symbols ∧
      ((analyst.notify e).run a).2.typeCells = ((typeBinder.notify e).run b).2.typeCells := by
  intro b
  have hrun : (analyst.notify e).run a =
      (typeBinder.notify e >>= fun _ => codeEmitter.notify e).run b :=
    Action.run_bind_of_ok (Action.run_modify _ a) _
  rw [hrun]
  rcases htypes : (typeBinder.notify e).run b with ⟨err | ⟨⟩, c⟩
  · rw [Action.run_bind_of_error htypes]
    exact ⟨rfl, rfl⟩
  · rw [Action.run_bind_of_ok htypes]
    exact codeEmitter_spares e c

/-- **Events without a declaration leave the table alone**, also where one of them is refused. -/
theorem symbols_deliver (hes : .reduce .declaration ∉ es) (a : Analysis) :
    ((analyst.deliver es).run a).2.symbols = a.symbols := by
  induction es generalizing a with
  | nil => rfl
  | cons e es ih =>
    have hfirst : ((analyst.notify e).run a).2.symbols = a.symbols := by
      rw [(symbols_analyst e a).1]
      exact symbols_typeBinder (fun he => hes (by simp [he])) _
    rw [Observer.deliver_cons]
    rcases hrun : (analyst.notify e).run a with ⟨err | ⟨⟩, b⟩
    · rw [hrun] at hfirst
      rw [Action.run_bind_of_error hrun, hfirst]
    · rw [hrun] at hfirst
      rw [Action.run_bind_of_ok hrun, ih fun h => hes (List.mem_cons_of_mem _ h), hfirst]

/-- A declaration gives the type to the name on the stack. -/
theorem symbols_declaration {rest : List (Cell SourceType)}
    (hcells : a.typeCells = .token (.ident x) :: .value .int :: rest)
    (hx : a.symbols.contains x = true) :
    ((typeBinder.notify (.reduce .declaration)).run a).2.symbols = a.symbols.declare x .int := by
  have honTypes : (Analysis.onTypes (typeReduction .declaration)).run a =
      (.ok (.blank, some (x, .int)), { a with typeCells := rest }) := by
    rw [Analysis.run_onTypes, hcells]
    rfl
  obtain ⟨log, hbind⟩ := exists_run_bindType (a := { a with typeCells := rest }) hx .int
  have hrun : (typeBinder.notify (.reduce .declaration)).run a =
      (.ok (), { a with symbols := a.symbols.declare x .int, typeCells := .blank :: rest, log }) :=
    (Action.run_bind_of_ok honTypes _).trans (Action.run_bind_of_ok hbind _)
  rw [hrun]

/-- Behind `int`, the type is on the stack. -/
theorem typeCells_declarator
    (h : (analyst.deliver [.shift (.keyword .int), .reduce .declarator]).run a = (.ok (), a')) :
    a'.typeCells = .value .int :: a.typeCells := by
  obtain ⟨⟨⟩, b, hshift, hreduce⟩ := Action.run_bind_eq_ok.mp h
  have hb := (symbols_analyst (.shift (.keyword .int)) a).2
  rw [hshift] at hb
  have ha' := (symbols_analyst (.reduce .declarator) b).2
  rw [Observer.run_deliver_singleton] at hreduce
  rw [hreduce] at ha'
  have honTypes : (Analysis.onTypes (typeReduction .declarator)).run
      { b with log := b.log.push (.event (.reduce .declarator)) } =
        (.ok (.value .int, none), { b with
          typeCells := a.typeCells
          log := b.log.push (.event (.reduce .declarator)) }) := by
    rw [Analysis.run_onTypes, show b.typeCells = .token (.keyword .int) :: a.typeCells from hb]
    rfl
  have hnotify : (typeBinder.notify (.reduce .declarator)).run
      { b with log := b.log.push (.event (.reduce .declarator)) } =
        (.ok (), { b with
          typeCells := .value .int :: a.typeCells
          log := b.log.push (.event (.reduce .declarator)) }) :=
    Action.run_bind_of_ok honTypes _
  rw [ha', hnotify]

/-! ## Where names are declared -/

theorem FactorRole.declaration_ne (role : FactorRole) : .declaration ≠ role.production := by
  cases role <;> simp [production]

theorem TermRole.declaration_ne (role : TermRole) : .declaration ≠ role.production := by
  cases role <;> simp [production]

theorem ValueStatement.declaration_ne (goal : ValueStatement) : .declaration ≠ goal.production := by
  cases goal <;> simp [production]

namespace Reading

variable {r r' : Reading} {t : Token}

/-- A name is due exactly behind `int`. -/
theorem Move.position_eq_declaredName_iff (h : Move r t es r') :
    r'.position = .declaredName ↔ t = .keyword .int := by
  cases h with
  | sign n goal term outer sign => cases sign <;> simp [Sign.token]
  | _ => simp

theorem Move.events_of_int (h : Move r (.keyword .int) es r') :
    es = [.shift (.keyword .int), .reduce .declarator] := by
  generalize ht : Token.keyword .int = t at h
  cases h with
  | declarator n => rfl
  | sign n goal term outer sign => cases sign <;> cases ht
  | _ => cases ht

theorem Move.declaration_not_mem (h : Move r t es r') (hr : r.position ≠ .declaredName) :
    .reduce .declaration ∉ es := by
  cases h with
  | declaredName n x => exact absurd rfl hr
  | name n goal slot outer x => simp [slot.factor.declaration_ne]
  | literal n goal slot outer x => simp [slot.factor.declaration_ne]
  | sign n goal term outer sign => simp [term.declaration_ne]
  | closeParen n goal term slot outer => simp [term.declaration_ne, slot.factor.declaration_ne]
  | value n goal term => simp [term.declaration_ne, goal.declaration_ne]
  | _ => simp

/-- A declaration is reduced only where a declared name is due. -/
theorem declaration_not_mem (hr : r.position ≠ .declaredName) (t : Token) :
    .reduce .declaration ∉ (r.advance t).events := by
  cases hprogress : (r.advance t).progress with
  | resume r' => exact (move_of_progress hprogress).declaration_not_mem hr
  | accepted =>
    obtain ⟨rfl, hposition, hcomplete⟩ := advance_accepted_iff.mp hprogress
    obtain ⟨position, n⟩ := r
    obtain rfl : position = .statement := hposition
    simp [advance_eof n hcomplete, closingEvents, List.mem_replicate]
  | expected what =>
    rcases events_of_expected hprogress with hnone | ⟨goal, term, outer, -, hevents | ⟨-, hevents⟩⟩
    · simp [hnone]
    · simp [hevents, term.declaration_ne]
    · simp [hevents, term.declaration_ne, goal.declaration_ne]

/-- At a token, at most that token is shifted. -/
theorem shiftedTokens_advance (r : Reading) (t : Token) :
    shiftedTokens (r.advance t).events <+: [t] := by
  by_cases hresume : ∃ r', (r.advance t).progress = .resume r'
  · obtain ⟨r', hprogress⟩ := hresume
    rw [(move_of_progress hprogress).shiftedTokens]
  · rw [shiftedTokens_of_stuck (not_exists.mp hresume)]
    exact List.nil_prefix

end Reading

/-! ## Every parse -/

/-- An analysis and what it was told, where the parse is at a position. -/
structure Follows (given : SymbolTable) (r : Reading) (watched : Analysis × List Event) :
    Prop where
  /-- The table has the types of the names declared so far. -/
  typed : given.TypedBy (shiftedTokens watched.2) watched.1.symbols
  /-- A name is due if `int` was the last token. -/
  due : (shiftedTokens watched.2).getLast? = some (.keyword .int) ↔ r.position = .declaredName
  /-- Where a name is due, its type is on the stack. -/
  cell : r.position = .declaredName → ∃ rest, watched.1.typeCells = .value .int :: rest

namespace Follows

open Reading

variable {r r' : Reading} {t : Token} {ts : List Token} {watched watched' : Analysis × List Event}
  {res : Except SemanticError Unit}

theorem start (given : SymbolTable) : Follows given .start ({ symbols := given }, []) :=
  ⟨.refl given, by simp [shiftedTokens, Reading.start], by simp [Reading.start]⟩

/-- **The declared name.** It is shifted, and the declaration is reduced at once. Whatever the other
observer says to that, the name has its type. -/
theorem typedBy_of_due (h : Follows given r watched) (hr : r.position = .declaredName)
    (hnames : ∀ x, t = .ident x → given.contains x = true)
    (hrun : (analyst.logged.deliver (r.advance t).events).run watched = (res, watched')) :
    given.TypedBy (shiftedTokens watched'.2) watched'.1.symbols := by
  obtain ⟨position, n⟩ := r
  obtain rfl : position = .declaredName := hr
  obtain ⟨a, seen⟩ := watched
  cases t with
  | ident x =>
    obtain ⟨rest, hcells⟩ := h.cell rfl
    obtain ⟨b, hshift, hsymbols, hcells'⟩ : ∃ b, (analyst.notify (.shift (.ident x))).run a =
        (.ok (), b) ∧ b.symbols = a.symbols ∧ b.typeCells = .token (.ident x) :: a.typeCells :=
      ⟨_, rfl, rfl, rfl⟩
    have hlogged : (analyst.logged.notify (.shift (.ident x))).run (a, seen) =
        (.ok (), b, seen ++ [.shift (.ident x)]) := by
      rw [Observer.run_notify_logged, hshift]
    have hevents : (Reading.advance ⟨.declaredName, n⟩ (.ident x)).events =
        [.shift (.ident x), .reduce .declaration] := rfl
    rw [hevents, Observer.deliver_cons, Action.run_bind_of_ok hlogged,
      Observer.run_deliver_singleton, Observer.run_notify_logged] at hrun
    obtain ⟨-, rfl⟩ := Prod.mk.inj hrun
    have hx : b.symbols.contains x = true := by
      rw [hsymbols]
      exact h.typed.contains_iff.mpr (hnames x rfl)
    have htable : ((analyst.notify (.reduce .declaration)).run b).2.symbols =
        a.symbols.declare x .int := by
      rw [(symbols_analyst _ b).1, ← hsymbols]
      exact symbols_declaration (hcells'.trans (congrArg _ hcells)) hx
    have hshifted : shiftedTokens (seen ++ [.shift (.ident x)] ++ [.reduce .declaration]) =
        shiftedTokens seen ++ [.ident x] := by
      simp [shiftedTokens, Event.shifted?]
    rw [htable, hshifted]
    exact h.typed.declare (h.due.mpr rfl) (hsymbols ▸ hx)
  | _ =>
    obtain ⟨-, rfl⟩ := Prod.mk.inj hrun
    exact h.typed

/-- **Any other token.** It declares nothing, so the table stays as it is. -/
theorem typedBy_of_not_due (h : Follows given r watched) (hr : r.position ≠ .declaredName)
    (hrun : (analyst.logged.deliver (r.advance t).events).run watched = (res, watched')) :
    given.TypedBy (shiftedTokens watched'.2) watched'.1.symbols := by
  obtain ⟨a, seen⟩ := watched
  obtain ⟨told, htold, -, hlogged⟩ := analyst.run_deliver_logged a (r.advance t).events seen
  obtain ⟨-, rfl⟩ := Prod.mk.inj (hlogged.symm.trans hrun)
  rw [symbols_deliver (declaration_not_mem hr t), shiftedTokens_append]
  have hshifted : shiftedTokens told <+: [t] :=
    (htold.filterMap _).trans (shiftedTokens_advance r t)
  exact h.typed.append_of_prefix (fun hlast => hr (h.due.mp hlast)) hshifted

/-- **One token** keeps an analysis in step with the parse. -/
theorem step (h : Follows given r watched) (hnames : ∀ x, t = .ident x → given.contains x = true)
    (hrun : (analyst.logged.deliver (r.advance t).events).run watched = (res, watched')) :
    given.TypedBy (shiftedTokens watched'.2) watched'.1.symbols ∧
      (res = .ok () → ∀ r', (r.advance t).progress = .resume r' → Follows given r' watched') := by
  have htyped : given.TypedBy (shiftedTokens watched'.2) watched'.1.symbols := by
    by_cases hr : r.position = .declaredName
    · exact h.typedBy_of_due hr hnames hrun
    · exact h.typedBy_of_not_due hr hrun
  refine ⟨htyped, fun hok r' hprogress => ?_⟩
  have hmove := move_of_progress hprogress
  obtain ⟨a, seen⟩ := watched
  obtain ⟨told, -, hall, hlogged⟩ := analyst.run_deliver_logged a (r.advance t).events seen
  obtain ⟨hres, rfl⟩ := Prod.mk.inj (hlogged.symm.trans hrun)
  have hdelivered := hres.trans hok
  obtain rfl := hall hdelivered
  refine ⟨htyped, ?_, fun hr' => ?_⟩
  · rw [shiftedTokens_append, hmove.shiftedTokens, hmove.position_eq_declaredName_iff]
    simp
  · obtain rfl := hmove.position_eq_declaredName_iff.mp hr'
    refine ⟨a.typeCells, typeCells_declarator ?_⟩
    rw [← hmove.events_of_int]
    exact Prod.ext hdelivered rfl

/-- **A whole parse.** However it ends, the table has the types of the names declared before. -/
theorem deliver (h : Follows given r watched)
    (hnames : ∀ x, .ident x ∈ ts → given.contains x = true)
    (hrun : (analyst.logged.deliver (r.eventsFrom ts)).run watched = (res, watched')) :
    given.TypedBy (shiftedTokens watched'.2) watched'.1.symbols := by
  induction ts generalizing r watched with
  | nil =>
    obtain ⟨-, rfl⟩ := Prod.mk.inj hrun
    exact h.typed
  | cons t ts ih =>
    rw [eventsFrom, Observer.run_deliver_append] at hrun
    rcases hfirst : (analyst.logged.deliver (r.advance t).events).run watched with ⟨err | ⟨⟩, next⟩
    all_goals have hstep := h.step (fun x hx => hnames x (by simp [hx])) hfirst
    · rw [Action.run_bind_of_error hfirst] at hrun
      obtain ⟨-, rfl⟩ := Prod.mk.inj hrun
      exact hstep.1
    · rw [Action.run_bind_of_ok hfirst] at hrun
      cases hprogress : (r.advance t).progress with
      | resume r' =>
        rw [hprogress] at hrun
        exact ih (hstep.2 rfl r' hprogress) (fun x hx => hnames x (by simp [hx])) hrun
      | accepted =>
        rw [hprogress] at hrun
        obtain ⟨-, rfl⟩ := Prod.mk.inj hrun
        exact hstep.1
      | expected what =>
        rw [hprogress] at hrun
        obtain ⟨-, rfl⟩ := Prod.mk.inj hrun
        exact hstep.1

end Follows

/-- The table behind an analysis. -/
theorem typedBy_parse {tokens : List Token}
    (hnames : ∀ x, .ident x ∈ tokens → given.contains x = true) :
    given.TypedBy
      (shiftedTokens ((parse analyst.logged tokens).run ({ symbols := given }, [])).2.2)
      ((parse analyst.logged tokens).run ({ symbols := given }, [])).2.1.symbols := by
  rw [parse, Reading.snd_run_parseFrom]
  exact (Follows.start given).deliver hnames rfl

/-! ## Programs -/

/-- No name is declared across a semicolon. -/
theorem declares_append_semicolon {ts us : List Token} :
    Declares (ts ++ .semicolon :: us) x ↔ Declares ts x ∨ Declares us x := by
  induction us using List.reverseRecOn with
  | nil => simp [declares_concat, not_declares_nil]
  | append_singleton us t ih =>
    have hlast : (ts ++ .semicolon :: us).getLast? = some (.keyword .int) ↔
        us.getLast? = some (.keyword .int) := by
      rw [List.getLast?_append_cons, List.getLast?_cons]
      cases us.getLast? <;> simp
    rw [← List.cons_append, ← List.append_assoc, declares_concat, declares_concat, ih, hlast,
      or_assoc]

mutual

theorem Expression.keyword_not_mem (k : Keyword) (e : Expression) : .keyword k ∉ e.tokens := by
  cases e with
  | single t => exact t.keyword_not_mem k
  | more e sign t =>
    have he := e.keyword_not_mem k
    have ht := t.keyword_not_mem k
    cases sign <;> simp [Expression.tokens, Sign.token, he, ht]

theorem Term.keyword_not_mem (k : Keyword) (t : Term) : .keyword k ∉ t.tokens := by
  cases t with
  | single f => exact f.keyword_not_mem k
  | times t f => simp [Term.tokens, t.keyword_not_mem k, f.keyword_not_mem k]

theorem Factor.keyword_not_mem (k : Keyword) (f : Factor) : .keyword k ∉ f.tokens := by
  cases f with
  | paren e => simp [Factor.tokens, e.keyword_not_mem k]
  | name x => simp [Factor.tokens]
  | literal text => simp [Factor.tokens]

end

theorem Statement.declares_tokens (s : Statement) : Declares s.tokens x ↔ s = .declare x := by
  have hint : .keyword .int ∉ s.tokens → ¬ Declares s.tokens x := fun hnot hdeclares =>
    hnot (hdeclares.subset (by simp))
  cases s with
  | declare y =>
    rw [Statement.tokens, ← List.singleton_append, declares_concat]
    simp [Declares, List.infix_cons_iff]
  | assign y e =>
    exact iff_of_false (hint (by simp [Statement.tokens, e.keyword_not_mem])) (by simp)
  | ret e => exact iff_of_false (hint (by simp [Statement.tokens, e.keyword_not_mem])) (by simp)

/-- The names that tokens of a program declare are those that its statements declare. -/
theorem Program.declares_tokens (p : Program) :
    Declares p.tokens x ↔ .declare x ∈ p.statements := by
  rw [Program.tokens]
  induction p.statements with
  | nil => simp [Statement.listTokens, not_declares_nil]
  | cons s ss ih =>
    have hsplit : Statement.listTokens (s :: ss) =
        s.tokens ++ .semicolon :: Statement.listTokens ss := by
      simp [Statement.listTokens]
    rw [hsplit, declares_append_semicolon, s.declares_tokens, ih, List.mem_cons, eq_comm]

/-! ## Types -/

section Compilation

variable {source : String} {c : Compilation}

/-- The lexer enters the names of the tokens, without a type. -/
theorem find?_scannedSymbols (h : compile source = .ok c) (x : String) :
    c.scannedSymbols.find? x = if .ident x ∈ c.tokens then some none else none := by
  have hlex := (compile_eq_ok h).1
  have hfind := find?_tokenize (congrArg Prod.fst hlex) x
  rw [hlex] at hfind
  exact hfind

theorem symbols_of_compile (h : compile source = .ok c) :
    c.symbols = (analyse c.tokens c.scannedSymbols).2.symbols := by
  obtain ⟨hlex, ⟨a, hparse, hcode⟩, hgen⟩ := compile_eq_ok h
  have hcompile := compile_eq_map_generate hlex hparse
  rw [h, ← hcode, hgen] at hcompile
  rw [hparse]
  exact congrArg Compilation.symbols (Except.ok.inj hcompile)

/-- The types in the table of a compilation are those of the declared names. -/
theorem typedBy_of_compile (h : compile source = .ok c) :
    ∃ p : Program, c.tokens = p.tokens ++ [.eof] ∧
      c.scannedSymbols.TypedBy p.tokens c.symbols := by
  obtain ⟨hlex, ⟨a, hparse, -⟩, -⟩ := compile_eq_ok h
  obtain ⟨p, hp⟩ := exists_program_of_source hlex hparse
  have hnames : ∀ x, .ident x ∈ c.tokens → c.scannedSymbols.contains x = true := by
    intro x hx
    rw [SymbolTable.contains, find?_scannedSymbols h, if_pos hx]
    rfl
  obtain ⟨told, -, hall, hlogged⟩ :=
    analyst.run_parse_logged { symbols := c.scannedSymbols } c.tokens
  have hok : ((parse analyst c.tokens).run { symbols := c.scannedSymbols }).1 = .ok () :=
    congrArg Prod.fst hparse
  have htyped := typedBy_parse hnames
  rw [hlogged, hall hok, hp, p.stops.eventsFrom_eq, p.stops.shiftedTokens, ← hp] at htyped
  exact ⟨p, hp, symbols_of_compile h ▸ htyped⟩

end Compilation

/-- **Declarations type exactly the declared names.** Let a table contain the names of the tokens.
However the parse ends under both observers, the table has the same names as before, and a name has
a type exactly if it had one or if `int` stands right in front of it among the tokens that were
shifted. So the two tables of a compilation have the same names, those of the first have no type,
and in the second exactly the names have a type that a statement of the source declares. -/
theorem declared_names_have_types :
    (∀ (tokens : List Token) (given : SymbolTable),
      (∀ x, .ident x ∈ tokens → given.contains x = true) →
      let watched := (parse analyst.logged tokens).run ({ symbols := given }, [])
      analyse tokens given = (watched.1, watched.2.1) ∧
        shiftedTokens watched.2.2 <+: tokens ∧
        watched.2.1.symbols.names = given.names ∧
        ∀ x, watched.2.1.symbols.find? x = some (some .int) ↔
          given.find? x = some (some .int) ∨ Declares (shiftedTokens watched.2.2) x) ∧
    ∀ (source : String) (c : Compilation), compile source = .ok c →
      c.symbols.names = c.scannedSymbols.names ∧
        (∀ x ∈ c.scannedSymbols.names, c.scannedSymbols.find? x = some none) ∧
        (∀ x, c.symbols.find? x = some (some .int) ↔ Declares c.tokens x) ∧
        ∃ p : Program, c.tokens = p.tokens ++ [.eof] ∧
          ∀ x, Declares c.tokens x ↔ .declare x ∈ p.statements := by
  refine ⟨fun tokens given hnames => ?_, fun source c hcompile => ?_⟩
  · intro watched
    obtain ⟨told, htold, -, hlogged⟩ := analyst.run_parse_logged { symbols := given } tokens
    have hwatched : watched = ((analyse tokens given).1, (analyse tokens given).2, told) := hlogged
    have htyped := typedBy_parse hnames
    refine ⟨by rw [hwatched], ?_, htyped.names, htyped.typed_iff⟩
    rw [hwatched]
    exact (htold.filterMap _).trans (Reading.shiftedTokens_eventsFrom tokens).1
  · obtain ⟨p, hp, htyped⟩ := typedBy_of_compile hcompile
    have hscanned := find?_scannedSymbols hcompile
    refine ⟨htyped.names, fun x hx => ?_, fun x => ?_, p, hp, fun x => ?_⟩
    · have hcontains := SymbolTable.contains_iff.mpr hx
      rw [SymbolTable.contains, hscanned] at hcontains
      rw [hscanned]
      split at hcontains
      · next hmem => rw [if_pos hmem]
      · cases hcontains
    · have huntyped : c.scannedSymbols.find? x ≠ some (some .int) := by
        rw [hscanned]
        split <;> simp
      rw [htyped.typed_iff, or_iff_right huntyped, hp, declares_append_eof]
    · rw [hp, declares_append_eof, p.declares_tokens]

/-- A program that is not read to its end: its literal is too large. -/
def cutDeclarations : List Token :=
  [.keyword .int, .ident "a", .semicolon, .ident "b", .assign, .literal "99999999999", .semicolon,
    .keyword .int, .ident "c", .semicolon, .eof]

/-- A table with the names of that program, and with one more name, which has a type. -/
def oneTyped : SymbolTable :=
  ((((SymbolTable.empty.add "a").add "b").add "c").add "d").declare "d" .int

/-- The name in front of the literal has a type then, and the name behind it has not. In a program
that compiles, a name may be assigned first and declared later. -/
theorem declared_names_have_types_cut :
    (∀ x, .ident x ∈ cutDeclarations → oneTyped.contains x = true) ∧
      (analyse cutDeclarations oneTyped).1 = .error (.action (.badLiteral "99999999999")) ∧
      (∀ x, (analyse cutDeclarations oneTyped).2.symbols.find? x = some (some .int) ↔
        x = "d" ∨ x = "a") ∧
      ∃ c, compile "a = 1; int a; return b;" = .ok c ∧
        ∀ x, c.symbols.find? x = some (some .int) ↔ x = "a" := by
  have hnames : ∀ x, .ident x ∈ cutDeclarations → oneTyped.contains x = true := by
    intro x hx
    have hcases : x = "a" ∨ x = "b" ∨ x = "c" := by simpa [cutDeclarations] using hx
    rcases hcases with rfl | rfl | rfl <;> decide +kernel
  have hshifted : shiftedTokens
      ((parse analyst.logged cutDeclarations).run ({ symbols := oneTyped }, [])).2.2 =
        cutDeclarations.take 6 := by decide +kernel
  have htokens : (compile "a = 1; int a; return b;").map Compilation.tokens =
      .ok [.ident "a", .assign, .literal "1", .semicolon, .keyword .int, .ident "a", .semicolon,
        .keyword .ret, .ident "b", .semicolon, .eof] := by decide +kernel
  obtain ⟨hanalyse, -, -, htyped⟩ := declared_names_have_types.1 cutDeclarations oneTyped hnames
  refine ⟨hnames, by decide +kernel, fun x => ?_, ?_⟩
  · have hgiven : oneTyped.find? x = some (some .int) ↔ x = "d" := by
      have hempty : SymbolTable.empty.find? x = none := rfl
      simp only [oneTyped, SymbolTable.find?_declare, SymbolTable.find?_add, hempty]
      split_ifs <;> simp_all
    have hdeclares : Declares (cutDeclarations.take 6) x ↔ x = "a" := by
      simp [Declares, cutDeclarations, List.infix_cons_iff]
    rw [hanalyse, htyped, hshifted, hgiven, hdeclares]
  · rcases hcompile : compile "a = 1; int a; return b;" with err | c
    · rw [hcompile] at htokens
      cases htokens
    · rw [hcompile] at htokens
      obtain ⟨-, -, htyped, -⟩ := declared_names_have_types.2 _ c hcompile
      refine ⟨c, rfl, fun x => ?_⟩
      rw [htyped, show c.tokens = _ from Except.ok.inj htokens]
      simp [Declares, List.infix_cons_iff]

end StraightLine
