import Mathlib
import StraightLine.Proofs.Reductions
import StraightLine.Proofs.SingleUse
import StraightLine.Proofs.SymbolTable

/-!
# Temporaries in any stream of events

The observer that emits code does not know where its events come from. Here it is told events in any
order, it goes on after those that it refused, and names are added to the symbol table in between.
Even then every temporary is written once, by the operator whose turn it is, and read at most once,
behind its write.

The reason is that a temporary moves. An operator puts a new one on the stack of cells; an
instruction that reads one has taken it off. So the temporaries on the stack, together with those
that the code reads, are always among those handed out, each counted as often as it occurs. This
list is the `ledger`, and a reduction changes it by the temporary that it adds and by the values in
the cells that it drops. In a parse there are no values in those cells, and in the end there are no
cells: then the code reads every temporary exactly once.

## Main definitions

* `pending`, `Emission.ledger` — the temporaries on a stack, and with them those that were read
* `Emission.Orderly` — temporaries are numbered by their operators, and read at most once
* `Emission.Knows` — all names are in a symbol table
* `Feed`, `Analysis.feedAll` — events and names, one after another

## Main results

* `Emission.Step.orderly`, `orderly_feedAll` — a step, and every stream, keeps the order
* `Emission.Step.knows`, `knows_feedAll` — the same for names
* `Emission.Step.settled`, `settled_feedAll` — in a parse, every temporary is on the stack or read
* `temporaries_used_once` — what follows for the code
-/

namespace StraightLine

/-! ## The temporaries on a stack -/

/-- The variables in a cell. -/
def Cell.vars : Cell Operand → List Var
  | .value o => o.vars
  | _ => []

@[simp] theorem Cell.vars_value (o : Operand) : (Cell.value o).vars = o.vars :=
  rfl

@[simp] theorem Cell.vars_token (t : Token) : (Cell.token t : Cell Operand).vars = [] :=
  rfl

@[simp] theorem Cell.vars_blank : (Cell.blank : Cell Operand).vars = [] :=
  rfl

/-- The temporaries on a stack, which are those that can still be read. -/
def pending (cells : List (Cell Operand)) : List Var :=
  cells.flatMap fun c => c.vars.filter Var.isTemp

theorem pending_cons (c : Cell Operand) (cells : List (Cell Operand)) :
    pending (c :: cells) = c.vars.filter Var.isTemp ++ pending cells :=
  List.flatMap_cons

theorem pending_append (front back : List (Cell Operand)) :
    pending (front ++ back) = pending front ++ pending back :=
  List.flatMap_append

@[simp] theorem pending_nil : pending [] = [] :=
  rfl

theorem mem_pending {v : Var} {cells : List (Cell Operand)} :
    v ∈ pending cells ↔ v.isTemp = true ∧ v ∈ cells.flatMap Cell.vars := by
  simp only [pending, List.mem_flatMap, List.mem_filter]
  tauto

/-- Cells without values have no temporaries. -/
theorem pending_eq_nil {cells : List (Cell Operand)} (h : ∀ o, .value o ∉ cells) :
    pending cells = [] := by
  rw [pending, List.flatMap_eq_nil_iff]
  intro c hc
  cases c with
  | value o => exact absurd hc (h o)
  | token t => rfl
  | blank => rfl

theorem pending_sublist {rest cells : List (Cell Operand)} (h : rest <:+ cells) :
    (pending rest).Sublist (pending cells) :=
  h.sublist.flatMap _

theorem count_tempReads {v : Var} (hv : v.isTemp = true) (code : List Instr) :
    (tempReads code).count v = (code.flatMap Instr.reads).count v := by
  rw [tempReads, ← List.filter_flatMap, List.count_filter hv]

/-! ## What a reduction does to variables -/

section Reduces

variable {symbols : SymbolTable} {temp : Var} {p : Production}
  {cells dropped rest : List (Cell Operand)} {out : Cell Operand × Option Instr} {i : Instr}

/-- The temporary that a reduction hands out, if it emits an operator. -/
def handedOut (temp : Var) (emitted : Option Instr) : List Var :=
  if emitted.any Instr.isArith then [temp] else []

/-- **A reduction loses no temporary**: each one is still on the stack, or read, or in a cell that
was dropped. There may be a new one. -/
theorem Reduces.perm_pending (h : Reduces symbols temp p cells dropped out rest)
    (htemp : temp.isTemp = true) :
    (pending (out.1 :: rest) ++ tempReads out.2.toList ++ pending dropped).Perm
      (pending cells ++ handedOut temp out.2) := by
  have hnew : (Operand.var temp).vars.filter Var.isTemp = [temp] := by simp [Operand.vars, htemp]
  rw [List.perm_iff_count]
  intro v
  cases h with
  | assignment src sign _ hx =>
    simp [pending_cons, tempReads, Instr.reads, handedOut, Instr.isArith]
    omega
  | ret value word =>
    simp [pending_cons, tempReads, Instr.reads, handedOut, Instr.isArith]
    omega
  | arith op lhs rhs sign =>
    simp [pending_cons, hnew, tempReads, Instr.reads, handedOut, Instr.isArith, List.count_cons]
    omega
  | pass through value => simp [pending_cons, tempReads, handedOut]
  | paren value left right =>
    simp [pending_cons, tempReads, handedOut]
    omega
  | name _ hx => simp [pending_cons, Operand.vars, Var.isTemp, tempReads, handedOut]
  | literal _ hvalue => simp [pending_cons, Operand.vars, tempReads, handedOut]
  | bare hbare _ _ hlen =>
    simp [pending_cons, pending_append, tempReads, handedOut]
    omega

/-- An operator is emitted with the next temporary, nothing else writes a temporary, and only what
is on the stack is read. -/
theorem Reduces.emitted (h : Reduces symbols temp p cells dropped out rest)
    (hout : out.2 = some i) :
    (i.isArith = true → i.dest? = some temp) ∧
      (i.isArith = false → ∀ v, i.dest? = some v → v.isTemp = false) ∧
      ∀ v ∈ i.reads, v ∈ cells.flatMap Cell.vars := by
  cases h with
  | assignment src sign _ hx =>
    obtain rfl := Option.some.inj hout
    refine ⟨nofun, ?_, fun v hv => ?_⟩
    · rintro _ _ ⟨⟩
      rfl
    · exact List.mem_append_left _ hv
  | ret value word =>
    obtain rfl := Option.some.inj hout
    refine ⟨nofun, nofun, fun v hv => ?_⟩
    exact List.mem_append_left _ hv
  | arith op lhs rhs sign =>
    obtain rfl := Option.some.inj hout
    refine ⟨fun _ => rfl, nofun, fun v hv => ?_⟩
    rcases List.mem_append.mp hv with hl | hr
    · simp [Cell.vars, hl]
    · simp [Cell.vars, hr]
  | _ => cases hout

/-- The variables that come out of a reduction were on the stack, or are new, or are names that the
table has. -/
theorem Reduces.mem_vars (h : Reduces symbols temp p cells dropped out rest) {v : Var}
    (hv : v ∈ (out.1 :: rest).flatMap Cell.vars ++ out.2.toList.flatMap Instr.vars) :
    v ∈ cells.flatMap Cell.vars ∨ v = temp ∨ ∃ x, v = .named x ∧ symbols.contains x = true := by
  cases h
  all_goals
    simp [Operand.vars, Instr.vars, Instr.reads, Instr.dest?] at hv ⊢
    grind

end Reduces

/-! ## Order -/

/-- Every temporary that code reads has been written by an operator before. -/
def TempsWritten (code : List Instr) : Prop :=
  ∀ before i after, code = before ++ i :: after → ∀ v ∈ i.reads, v.isTemp = true →
    ∃ w ∈ before, w.isArith = true ∧ w.dest? = some v

theorem TempsWritten.concat {code : List Instr} {i : Instr} (h : TempsWritten code)
    (hi : ∀ v ∈ i.reads, v.isTemp = true → ∃ w ∈ code, w.isArith = true ∧ w.dest? = some v) :
    TempsWritten (code ++ [i]) := by
  intro before j after hsplit
  rcases List.eq_nil_or_concat after with rfl | ⟨after, k, rfl⟩
  · obtain ⟨rfl, hj⟩ := List.append_inj' hsplit rfl
    obtain rfl := List.singleton_inj.mp hj
    exact hi
  · have hsplit' : code ++ [i] = (before ++ j :: after) ++ [k] := by simpa using hsplit
    exact h before j after (List.append_inj' hsplit' rfl).1

namespace Emission

/-- How many operators there are in the code. -/
def operators (x : Emission) : Nat :=
  x.code.countP Instr.isArith

/-- The temporaries on the stack and those that the code reads. -/
def ledger (x : Emission) : List Var :=
  pending x.cells ++ tempReads x.code

/-- Temporaries are numbered by their operators, read at most once, and behind their operator. -/
structure Orderly (x : Emission) : Prop where
  /-- The next temporary has the number of operators so far. -/
  next : x.next = UInt32.ofNat x.operators
  /-- Each operator writes the temporary of its number. -/
  numbered : (x.code.filter Instr.isArith).map Instr.dest? = (tempRange 0 x.operators).map some
  /-- Nothing else writes a temporary. -/
  unshared : ∀ i ∈ x.code, i.isArith = false → ∀ v, i.dest? = some v → v.isTemp = false
  /-- Of the temporaries handed out, none is on the ledger twice. -/
  once : x.ledger.Subperm (tempRange 0 x.operators)
  /-- What is read of temporaries has been written. -/
  written : TempsWritten x.code

variable {x x' : Emission} {symbols : SymbolTable} {p : Production} {e : Event}
  {cells dropped rest : List (Cell Operand)} {out : Cell Operand × Option Instr}

theorem orderly_start : Orderly ⟨[], [], 0⟩ where
  next := rfl
  numbered := rfl
  unshared := nofun
  once := List.nil_subperm
  written := by
    intro before i after h
    simp at h

/-- Cells may be lost, and cells without temporaries added. -/
theorem Orderly.withCells (h : x.Orderly) (hcells : (pending cells).Subperm (pending x.cells)) :
    Orderly { x with cells } where
  next := h.next
  numbered := h.numbered
  unshared := h.unshared
  once := ((List.subperm_append_right _).mpr hcells).trans h.once
  written := h.written

/-- A temporary that was handed out has been written by its operator. -/
theorem Orderly.exists_write (h : x.Orderly) {v : Var} (hv : v ∈ tempRange 0 x.operators) :
    ∃ w ∈ x.code, w.isArith = true ∧ w.dest? = some v := by
  have hmem : some v ∈ (x.code.filter Instr.isArith).map Instr.dest? := by
    rw [h.numbered]
    exact List.mem_map_of_mem hv
  obtain ⟨w, hw, hdest⟩ := List.mem_map.mp hmem
  obtain ⟨hcode, harith⟩ := List.mem_filter.mp hw
  exact ⟨w, hcode, harith, hdest⟩

/-- An operator hands out the temporary of its number. -/
theorem Orderly.tempRange_reduce (h : x.Orderly) (rest : List (Cell Operand))
    (out : Cell Operand × Option Instr) :
    tempRange 0 (x.reduce rest out).operators =
      tempRange 0 x.operators ++ handedOut (.temp x.next) out.2 := by
  obtain ⟨cell, _ | i⟩ := out
  · simp [reduce, operators, handedOut]
  · cases hi : i.isArith with
    | false => simp [reduce, operators, handedOut, hi]
    | true =>
      have hnew : tempRange x.operators (x.operators + 1) = [.temp x.next] := by
        rw [tempRange_succ, tempVar, h.next]
      have hcount : (x.reduce rest (cell, some i)).operators = x.operators + 1 := by
        simp [reduce, operators, hi]
      rw [hcount, ← tempRange_append (Nat.zero_le x.operators) (Nat.le_succ _), hnew]
      simp [handedOut, hi]

/-- The operators write the temporaries in order, as long as their numbers are different words. -/
theorem Orderly.dest?_operator (h : x.Orderly) (hfew : x.operators < 2 ^ 32) {k : Nat} {i : Instr}
    (hk : (x.code.filter Instr.isArith)[k]? = some i) :
    ∃ id : UInt32, id.toNat = k ∧ i.dest? = some (.temp id) := by
  have hlt : k < x.operators := by
    obtain ⟨hlt, -⟩ := List.getElem?_eq_some_iff.mp hk
    rwa [← List.countP_eq_length_filter] at hlt
  have hdest : ((tempRange 0 x.operators).map some)[k]? = some i.dest? := by
    rw [← h.numbered, List.getElem?_map, hk, Option.map_some]
  have hrange : ((tempRange 0 x.operators).map some)[k]? = some (some (tempVar k)) := by
    simp [tempRange, hlt]
  rw [hrange] at hdest
  exact ⟨UInt32.ofNat k, UInt32.toNat_ofNat_of_lt' (hlt.trans hfew), (Option.some.inj hdest).symm⟩

/-- An operator's temporary was handed out. -/
theorem Orderly.mem_tempRange (h : x.Orderly) {w : Instr} (hw : w ∈ x.code)
    (harith : w.isArith = true) {v : Var} (hv : w.dest? = some v) :
    v ∈ tempRange 0 x.operators := by
  have hmem : w.dest? ∈ (tempRange 0 x.operators).map some := by
    rw [← h.numbered]
    exact List.mem_map_of_mem (List.mem_filter.mpr ⟨hw, harith⟩)
  rw [hv] at hmem
  simpa using hmem

/-- No temporary is read twice, as long as their numbers are different words. -/
theorem Orderly.count_reads_le (h : x.Orderly) (hfew : x.operators < 2 ^ 32) (id : UInt32) :
    (x.code.flatMap Instr.reads).count (.temp id) ≤ 1 := by
  have hnodup : (tempRange 0 x.operators).Nodup := nodup_tempRange hfew.le
  rw [← count_tempReads rfl]
  calc (tempReads x.code).count (.temp id)
    _ ≤ x.ledger.count (.temp id) := (List.sublist_append_right ..).count_le _
    _ ≤ (tempRange 0 x.operators).count (.temp id) := h.once.count_le _
    _ ≤ 1 := List.nodup_iff_count_le_one.mp hnodup _

/-- A reduction changes the ledger by what it hands out and by what it drops. -/
theorem perm_ledger_reduce (h : Reduces symbols (.temp x.next) p x.cells dropped out rest) :
    ((x.reduce rest out).ledger ++ pending dropped).Perm
      (x.ledger ++ handedOut (.temp x.next) out.2) := by
  have hperm := h.perm_pending rfl
  rw [List.perm_iff_count] at hperm ⊢
  intro v
  have hcount := hperm v
  obtain ⟨cell, _ | i⟩ := out
  · simp only [reduce, ledger, List.count_append, Option.toList] at hcount ⊢
    simp only [tempReads, List.flatMap_nil, List.count_nil] at hcount ⊢
    omega
  · simp only [reduce, ledger, tempReads_append, List.count_append, Option.toList] at hcount ⊢
    omega

/-- What is dropped only makes the ledger shorter. -/
theorem Orderly.once_reduce (h : x.Orderly)
    (hreduces : Reduces symbols (.temp x.next) p x.cells dropped out rest) :
    (x.reduce rest out).ledger.Subperm (tempRange 0 (x.reduce rest out).operators) := by
  have hdropped : (x.reduce rest out).ledger.Subperm
      ((x.reduce rest out).ledger ++ pending dropped) := (List.sublist_append_left ..).subperm
  rw [h.tempRange_reduce]
  exact (hdropped.trans (perm_ledger_reduce hreduces).subperm).trans
    ((List.subperm_append_right _).mpr h.once)

/-- **A step keeps the order.** -/
theorem Step.orderly (hstep : Step symbols e x x') (h : x.Orderly) : x'.Orderly := by
  cases hstep with
  | shift t => exact h.withCells (List.Subperm.refl _)
  | accept _ c hlast => exact h.withCells List.nil_subperm
  | @reduce p _ dropped rest out hreduces =>
    have honce := h.once_reduce hreduces
    obtain ⟨cell, _ | i⟩ := out
    · exact ⟨h.next, h.numbered, h.unshared, honce, h.written⟩
    · obtain ⟨harith, hother, hreads⟩ := hreduces.emitted rfl
      refine ⟨?_, ?_, ?_, honce, ?_⟩
      · cases hi : i.isArith with
        | false => simp [Emission.reduce, operators, hi, h.next]
        | true => simp [Emission.reduce, operators, hi, h.next]
      · rw [h.tempRange_reduce, List.map_append, ← h.numbered]
        cases hi : i.isArith with
        | false => simp [Emission.reduce, handedOut, hi]
        | true => simp [Emission.reduce, handedOut, hi, harith hi]
      · intro j hj
        rcases List.mem_append.mp hj with hj | hj
        · exact h.unshared j hj
        · obtain rfl := List.mem_singleton.mp hj
          exact hother
      · refine h.written.concat fun v hv htemp => h.exists_write ?_
        -- what is read was on the stack, so it was handed out
        have hledger : v ∈ x.ledger :=
          List.mem_append_left _ (mem_pending.mpr ⟨htemp, hreads v hv⟩)
        exact h.once.subset hledger

/-! ## Names -/

/-- The variables on the stack and in the code. -/
def vars (x : Emission) : List Var :=
  x.cells.flatMap Cell.vars ++ x.code.flatMap Instr.vars

/-- All names on the stack and in the code are in the table. -/
def Knows (symbols : SymbolTable) (x : Emission) : Prop :=
  ∀ name, .named name ∈ x.vars → symbols.contains name = true

theorem Knows.withCells (h : x.Knows symbols)
    (hcells : cells.flatMap Cell.vars ⊆ x.cells.flatMap Cell.vars) :
    Knows symbols { x with cells } := by
  intro name hname
  rcases List.mem_append.mp hname with hcell | hcode
  · exact h name (List.mem_append_left _ (hcells hcell))
  · exact h name (List.mem_append_right _ hcode)

/-- **A step brings in only names of the table.** -/
theorem Step.knows (hstep : Step symbols e x x') (h : x.Knows symbols) : x'.Knows symbols := by
  cases hstep with
  | shift t => exact h.withCells (List.Subset.refl _)
  | accept _ c hlast => exact h.withCells (List.nil_subset _)
  | @reduce p _ dropped rest out hreduces =>
    intro name hname
    have hsplit :
        .named name ∈ (out.1 :: rest).flatMap Cell.vars ++ out.2.toList.flatMap Instr.vars ∨
          .named name ∈ x.code.flatMap Instr.vars := by
      obtain ⟨cell, _ | i⟩ := out
      · simpa [Emission.reduce, vars, or_assoc] using hname
      · simp only [Emission.reduce, vars, List.flatMap_append, List.mem_append] at hname ⊢
        exact hname.elim (fun hcell => .inl (.inl hcell)) fun hcode =>
          hcode.elim .inr fun hi => .inl (.inr hi)
    rcases hsplit with hnew | hold
    · rcases hreduces.mem_vars hnew with hcell | htemp | ⟨x, hx, hcontains⟩
      · exact h name (List.mem_append_left _ hcell)
      · cases htemp
      · obtain rfl := Var.named.inj hx
        exact hcontains
    · exact h name (List.mem_append_right _ hold)

/-! ## Events of a parse -/

/-- The cells stand for the symbols of a parse, and every temporary that was handed out is on the
stack or read. -/
structure Settled (ss : List GrammarSymbol) (x : Emission) : Prop where
  /-- There is a cell for each symbol. -/
  stands : Cell.StandAll (fun _ => True) Nonterminal.isValued ss x.cells
  /-- No temporary is lost. -/
  balanced : x.ledger.Perm (tempRange 0 x.operators)

theorem settled_start : Settled [] ⟨[], [], 0⟩ :=
  ⟨.nil, .refl _⟩

/-- **A step of a parse loses no temporary.** -/
theorem Step.settled {ss ss' : List GrammarSymbol} (hstep : Step symbols e x x')
    (horder : x.Orderly) (hfits : e.Fits ss ss') (h : x.Settled ss) : x'.Settled ss' := by
  obtain ⟨hstands, hbalanced⟩ := h
  cases hstep with
  | shift t =>
    cases hfits
    exact ⟨.cons ⟨rfl, trivial⟩ hstands, hbalanced⟩
  | accept _ c hlast =>
    cases hfits
    refine ⟨.nil, ?_⟩
    have hblank : c = .blank := by
      rw [hlast] at hstands
      exact (List.forall₂_cons.mp hstands).1.eq_blank rfl
    have hledger : x.ledger = tempReads x.code := by simp [ledger, hlast, hblank, pending_cons]
    rwa [hledger] at hbalanced
  | @reduce p _ dropped rest out hreduces =>
    cases hfits with
    | reduce _ ss =>
      obtain ⟨hstands', hdropped⟩ := hreduces.stands hstands
      refine ⟨(x.cells_reduce rest out).symm ▸ hstands', ?_⟩
      have hperm := perm_ledger_reduce hreduces
      rw [pending_eq_nil hdropped, List.append_nil] at hperm
      rw [horder.tempRange_reduce]
      exact hperm.trans (hbalanced.append_right _)

/-- Behind a parse, nothing is on the stack. -/
theorem Settled.ledger_eq (h : x.Settled []) : x.ledger = tempReads x.code := by
  have hcells : x.cells = [] := List.forall₂_nil_left_iff.mp h.stands
  rw [ledger, hcells, pending_nil, List.nil_append]

/-- Behind a parse, every temporary that was handed out has been read. -/
theorem Settled.count_reads (h : x.Settled []) (hfew : x.operators < 2 ^ 32) {v : Var}
    (hv : v ∈ tempRange 0 x.operators) : (x.code.flatMap Instr.reads).count v = 1 := by
  have htemp : v.isTemp = true := by
    obtain ⟨k, -, rfl⟩ := List.mem_map.mp hv
    rfl
  rw [← count_tempReads htemp, ← h.ledger_eq, h.balanced.count_eq]
  exact List.count_eq_one_of_mem (nodup_tempRange hfew.le) hv

end Emission

/-! ## Streams -/

/-- What the observer that emits code may be told, and what may happen to the table meanwhile. -/
inductive Feed where
  /-- The observer is told an event. -/
  | event (e : Event)
  /-- A name is entered in the symbol table. -/
  | name (x : String)

/-- The event that is told, if any. -/
def Feed.event? : Feed → Option Event
  | event e => some e
  | name _ => none

namespace Analysis

/-- What the observer that emits code answers. -/
def answer (a : Analysis) : Feed → Except SemanticError Unit
  | .event e => ((codeEmitter.notify e).run a).1
  | .name _ => .ok ()

/-- The state afterwards, whatever the answer was. -/
def feed (a : Analysis) : Feed → Analysis
  | .event e => ((codeEmitter.notify e).run a).2
  | .name x => { a with symbols := a.symbols.add x }

/-- The state behind a stream. -/
def feedAll (a : Analysis) (stream : List Feed) : Analysis :=
  stream.foldl feed a

variable {a : Analysis}

/-- An event takes a step, or it has only lost cells. -/
theorem feed_event (a : Analysis) (e : Event) :
    (a.feed (.event e)).symbols = a.symbols ∧
      (Emission.Step a.symbols e a.emission (a.feed (.event e)).emission ∨
        ∃ rest, rest <:+ a.valueCells ∧
          (a.feed (.event e)).emission = { a.emission with cells := rest }) := by
  obtain ⟨hok, herror⟩ := codeEmitter_ends e a
  rcases hrun : (codeEmitter.notify e).run a with ⟨err | ⟨⟩, a'⟩
  · rw [feed, hrun]
    exact (herror err a' hrun).imp_right .inr
  · rw [feed, hrun]
    exact (hok () a' hrun).imp_right .inl

/-- **An event or a name keeps the order.** -/
theorem orderly_feed (h : a.emission.Orderly) (f : Feed) : (a.feed f).emission.Orderly := by
  cases f with
  | name x => exact h
  | event e =>
    obtain ⟨-, hstep | ⟨rest, hrest, hemission⟩⟩ := a.feed_event e
    · exact hstep.orderly h
    · rw [hemission]
      exact h.withCells (pending_sublist hrest).subperm

/-- **An event or a name leaves all names in the table.** -/
theorem knows_feed (h : a.emission.Knows a.symbols) (f : Feed) :
    (a.feed f).emission.Knows (a.feed f).symbols := by
  cases f with
  | name x => exact fun name hname => SymbolTable.contains_add.mpr (.inr (h name hname))
  | event e =>
    obtain ⟨hsymbols, hstep | ⟨rest, hrest, hemission⟩⟩ := a.feed_event e
    · rw [hsymbols]
      exact hstep.knows h
    · rw [hsymbols, hemission]
      exact h.withCells (hrest.sublist.flatMap _).subset

theorem orderly_feedAll (h : a.emission.Orderly) (stream : List Feed) :
    (a.feedAll stream).emission.Orderly := by
  induction stream generalizing a with
  | nil => exact h
  | cons f stream ih => exact ih (orderly_feed h f)

theorem knows_feedAll (h : a.emission.Knows a.symbols) (stream : List Feed) :
    (a.feedAll stream).emission.Knows (a.feedAll stream).symbols := by
  induction stream generalizing a with
  | nil => exact h
  | cons f stream ih => exact ih (knows_feed h f)

/-- No answer on the way is a refusal. -/
def NoneRefused (a : Analysis) : List Feed → Prop
  | [] => True
  | f :: stream => a.answer f = .ok () ∧ (a.feed f).NoneRefused stream

instance decidableNoneRefused :
    (a : Analysis) → (stream : List Feed) → Decidable (a.NoneRefused stream)
  | _, [] => .isTrue trivial
  | a, f :: stream =>
    have := decidableNoneRefused (a.feed f) stream
    inferInstanceAs (Decidable (a.answer f = .ok () ∧ (a.feed f).NoneRefused stream))

/-- **The events of a parse, if none is refused, lose no temporary.** -/
theorem settled_feedAll {stream : List Feed} {ss ss' : List GrammarSymbol}
    (horder : a.emission.Orderly) (h : a.emission.Settled ss)
    (hfit : Event.FitAll (stream.filterMap Feed.event?) ss ss') (hok : a.NoneRefused stream) :
    (a.feedAll stream).emission.Settled ss' := by
  induction stream generalizing a ss with
  | nil =>
    cases hfit
    exact h
  | cons f stream ih =>
    obtain ⟨hanswer, hrest⟩ := hok
    cases f with
    | name x => exact ih (a := a.feed (.name x)) horder h hfit hrest
    | event e =>
      cases hfit with
      | cons first others =>
        have hstep := ((codeEmitter_ends e a).1 () _ (Prod.ext hanswer rfl)).2
        exact ih (a := a.feed (.event e)) (hstep.orderly horder) (hstep.settled horder first h)
          others hrest

end Analysis

/-! ## What follows for the code -/

/-- The observer that emits code, before it is told anything. -/
def Analysis.fresh (symbols : SymbolTable) : Analysis :=
  { symbols }

/-- **Single-use temporaries.** Let the observer that emits code be told any stream, and let it emit
fewer than `2 ^ 32` operators. The operators write the temporaries in order, and nothing else writes
one. A temporary is read at most once, behind its operator. Every name is in the table. If the
events are those of a parse that succeeds and none is refused, a temporary that is written is read.
-/
theorem temporaries_used_once (symbols : SymbolTable) (stream : List Feed)
    (hfew : ((Analysis.fresh symbols).feedAll stream).code.toList.countP Instr.isArith < 2 ^ 32) :
    let final := (Analysis.fresh symbols).feedAll stream
    let code := final.code.toList
    (∀ k i, (code.filter Instr.isArith)[k]? = some i →
      ∃ id : UInt32, id.toNat = k ∧ i.dest? = some (.temp id)) ∧
    (∀ dest src, .mov dest src ∈ code → dest.isTemp = false) ∧
    (∀ id, (code.flatMap Instr.reads).count (.temp id) ≤ 1) ∧
    (∀ before i after id, code = before ++ i :: after → .temp id ∈ i.reads →
      ∃ w ∈ before, w.isArith = true ∧ w.dest? = some (.temp id)) ∧
    (∀ i ∈ code, ∀ name, .named name ∈ i.vars → final.symbols.contains name = true) ∧
    (∀ tokens, (parse (Observer.recorder : Observer (List Event) SemanticError) tokens).run [] =
        (.ok (), stream.filterMap Feed.event?) →
      (Analysis.fresh symbols).NoneRefused stream →
      ∀ w ∈ code, w.isArith = true → ∀ v, w.dest? = some v →
        (code.flatMap Instr.reads).count v = 1) := by
  intro final code
  have hstart : (Analysis.fresh symbols).emission.Orderly := Emission.orderly_start
  have horder : final.emission.Orderly := Analysis.orderly_feedAll hstart stream
  have hnames : (Analysis.fresh symbols).emission.Knows symbols := fun _ hname => by cases hname
  have hknows : final.emission.Knows final.symbols := Analysis.knows_feedAll hnames stream
  refine ⟨fun k i hk => horder.dest?_operator hfew hk,
    fun dest src hmov => horder.unshared (.mov dest src) hmov rfl dest rfl,
    fun id => horder.count_reads_le hfew id,
    fun before i after id hsplit hid => horder.written before i after hsplit (.temp id) hid rfl,
    fun i hi name hname => ?_, fun tokens hparse hok w hw harith v hdest => ?_⟩
  · exact hknows name (List.mem_append_right _ (List.mem_flatMap_of_mem hi hname))
  · -- the events of the parse fit an empty stack and leave it empty
    obtain ⟨hdeliver, houtcome⟩ := Reading.run_parseFrom_eq_ok.mp hparse
    rw [Observer.run_deliver_recorder, List.nil_append] at hdeliver
    obtain ⟨ss, hfit, hss⟩ := Reading.fitAll_eventsFrom (ε := SemanticError) Reading.start tokens
    rw [hss houtcome, (Prod.mk.inj hdeliver).2] at hfit
    have hsettled : final.emission.Settled [] :=
      Analysis.settled_feedAll hstart Emission.settled_start hfit hok
    exact hsettled.count_reads hfew (horder.mem_tempRange hw harith hdest)

/-- The stream of `return 1 + x;`, where `x` is entered just before it is looked up. -/
def lateNameStream : List Feed :=
  [.event (.shift (.keyword .ret)), .event (.shift (.literal "1")), .event (.reduce .literal),
    .event (.reduce .term), .event (.reduce .expression), .event (.shift .plus),
    .event (.shift (.ident "x")), .name "x", .event (.reduce .name), .event (.reduce .term),
    .event (.reduce .add), .event (.reduce .ret), .event (.shift .semicolon),
    .event (.reduce .lastStatement), .event (.reduce .program), .event .accept]

/-- The sum in `lateNameStream` is read once, by the `return`. -/
theorem temporaries_used_once_lateName :
    ((Analysis.fresh .empty).feedAll lateNameStream).code.toList =
        [.arith .add (.temp 0) (.imm 1) (.var (.named "x")), .ret (.var (.temp 0))] ∧
      (((Analysis.fresh .empty).feedAll lateNameStream).code.toList.flatMap Instr.reads).count
        (.temp 0) = 1 := by
  have hcode : ((Analysis.fresh .empty).feedAll lateNameStream).code.toList =
      [.arith .add (.temp 0) (.imm 1) (.var (.named "x")), .ret (.var (.temp 0))] := by
    decide +kernel
  have hfew : ((Analysis.fresh .empty).feedAll lateNameStream).code.toList.countP Instr.isArith <
      2 ^ 32 := by
    rw [hcode]
    decide
  obtain ⟨-, -, -, -, -, hread⟩ := temporaries_used_once .empty lateNameStream hfew
  have hparse : (parse (Observer.recorder : Observer (List Event) SemanticError)
      [.keyword .ret, .literal "1", .plus, .ident "x", .semicolon, .eof]).run [] =
        (.ok (), lateNameStream.filterMap Feed.event?) := by
    decide +kernel
  have hok : (Analysis.fresh .empty).NoneRefused lateNameStream := by decide +kernel
  refine ⟨hcode, hread _ hparse hok (.arith .add (.temp 0) (.imm 1) (.var (.named "x"))) ?_ rfl
    (.temp 0) rfl⟩
  rw [hcode]
  decide

end StraightLine
