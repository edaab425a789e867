import StraightLine.Proofs.SymbolStack

/-!
# Viable prefixes

A token list is a viable prefix if some tokens behind it make it a sentence of the grammar. The
parser reads exactly the viable prefixes. What it has read can always be completed, since every
position of a statement can be left towards its semicolon; and the front of a sentence is read on
the way through that sentence. So where the parser stops, it has read the longest viable prefix, and
the token at which it stops is the first that fits no sentence.

## Main definitions

* `Sentence` — the yield of a derivation of a program
* `Viable` — the front of a sentence
* `LongestViable` — no longer front of a token list is viable
* `shiftedTokens` — the tokens among the events of a parse

## Main results

* `Reading.exists_reads_statement` — every reading can be completed
* `viable_iff_reads` — the viable prefixes are those that are read
* `Reading.exists_stop`, `Reading.Stops.longestViable` — the parser stops behind the longest one
* `Reading.Stops.sentence_iff` — and accepts if all of it is a sentence
* `Reading.Reads.shiftedTokens`, `Reading.Stops.shiftedTokens` — it has shifted what it has read
-/

namespace StraightLine

/-- A sentence of the grammar. -/
def Sentence (ts : List Token) : Prop :=
  ∃ d : Derivation (.nonterminal .program), d.yield = ts

/-- Some tokens behind the list make it a sentence. -/
def Viable (u : List Token) : Prop :=
  ∃ v, Sentence (u ++ v)

/-- `u` is the longest viable prefix of `w`. -/
structure LongestViable (u w : List Token) : Prop where
  /-- It is the front of `w`. -/
  front : u <+: w
  /-- It is viable. -/
  viable : Viable u
  /-- There is no longer one. -/
  longest : ∀ u', u' <+: w → Viable u' → u'.length ≤ u.length

/-- The token that an event shifts, if it does. -/
def Event.shifted? : Event → Option Token
  | .shift t => some t
  | _ => none

/-- The tokens that are shifted, in order. -/
def shiftedTokens (es : List Event) : List Token :=
  es.filterMap Event.shifted?

theorem shiftedTokens_append (es fs : List Event) :
    shiftedTokens (es ++ fs) = shiftedTokens es ++ shiftedTokens fs :=
  List.filterMap_append

theorem mem_shiftedTokens {es : List Event} {t : Token} :
    t ∈ shiftedTokens es ↔ .shift t ∈ es := by
  rw [shiftedTokens, List.mem_filterMap]
  constructor
  · rintro ⟨e, he, ht⟩
    cases e with
    | shift t' =>
      cases ht
      exact he
    | _ => cases ht
  · intro h
    exact ⟨.shift t, h, rfl⟩

theorem sentence_iff_exists_program {ts : List Token} :
    Sentence ts ↔ ∃ p : Program, p.tokens = ts := by
  constructor
  · rintro ⟨d, rfl⟩
    obtain ⟨p, hyield, -⟩ := d.exists_program
    exact ⟨p, hyield.symm⟩
  · rintro ⟨p, rfl⟩
    obtain ⟨d, hyield, -⟩ := p.exists_derivation
    exact ⟨d, hyield⟩

namespace Reading

variable {r r' r'' : Reading} {t : Token} {ts us : List Token} {es fs : List Event}

/-! ## Reading is deterministic -/

theorem Move.unique (h : Move r t es r') (h' : Move r t fs r'') : r' = r'' := by
  have heq := h.advance_eq.symm.trans h'.advance_eq
  cases heq
  rfl

theorem Reads.unique (h : Reads r ts es r') (h' : Reads r ts fs r'') : r' = r'' := by
  induction h generalizing fs with
  | refl r =>
    cases h'
    rfl
  | step first _ ih =>
    cases h' with
    | step first' others' =>
      obtain rfl := first.unique first'
      exact ih others'

/-- What is read is read piece by piece. -/
theorem Reads.of_append (h : Reads r (ts ++ us) es r'') :
    ∃ es₁ r' es₂, Reads r ts es₁ r' ∧ Reads r' us es₂ r'' := by
  induction ts generalizing r es with
  | nil => exact ⟨[], r, es, .refl r, h⟩
  | cons t ts ih =>
    cases h with
    | step first others =>
      obtain ⟨es₁, r', es₂, hts, hus⟩ := ih others
      exact ⟨_, r', es₂, .step first hts, hus⟩

theorem Reads.consumed (h : Reads r ts es r') (hus : r.Consumed us) : r'.Consumed (us ++ ts) := by
  induction h generalizing us with
  | refl r => rwa [List.append_nil]
  | step first _ ih =>
    have hrest := ih (hus.move first)
    rwa [List.append_assoc, List.singleton_append] at hrest

/-! ## Every reading can be completed -/

/-- An expression is completed by closing its parentheses. -/
theorem exists_reads_operator (goal : ValueStatement) (term : TermRole) (outer : List OperandSlot)
    (n : Nat) :
    ∃ ts es, Reads ⟨.operator goal term outer, n⟩ ts es ⟨.statement, n + 1⟩ := by
  induction outer generalizing term with
  | nil => exact ⟨_, _, .single (.value n goal term)⟩
  | cons slot outer ih =>
    obtain ⟨ts, es, hread⟩ := ih slot.term
    exact ⟨_, _, .step (.closeParen n goal term slot outer) hread⟩

/-- An operand that is due may be a number. -/
theorem exists_reads_operand (goal : ValueStatement) (slot : OperandSlot) (outer : List OperandSlot)
    (n : Nat) :
    ∃ ts es, Reads ⟨.operand goal slot outer, n⟩ ts es ⟨.statement, n + 1⟩ := by
  obtain ⟨ts, es, hread⟩ := exists_reads_operator goal slot.term outer n
  exact ⟨_, _, .step (.literal n goal slot outer "0") hread⟩

/-- **Every reading can be completed.** -/
theorem exists_reads_statement (r : Reading) :
    ∃ ts es, Reads r ts es ⟨.statement, r.complete + 1⟩ := by
  obtain ⟨position, n⟩ := r
  cases position with
  | statement =>
    obtain ⟨ts, es, hread⟩ := exists_reads_operand .ret {} [] n
    exact ⟨_, _, .step (.ret n) hread⟩
  | declaredName => exact ⟨_, _, .step (.declaredName n "x") (.single (.terminator n))⟩
  | assignSign =>
    obtain ⟨ts, es, hread⟩ := exists_reads_operand .assignment {} [] n
    exact ⟨_, _, .step (.assignSign n) hread⟩
  | operand goal slot outer => exact exists_reads_operand goal slot outer n
  | operator goal term outer => exact exists_reads_operator goal term outer n
  | terminator => exact ⟨_, _, .single (.terminator n)⟩

end Reading

open Reading

/-- **The viable prefixes are those that are read.** -/
theorem viable_iff_reads {u : List Token} : Viable u ↔ ∃ es r, Reads start u es r := by
  constructor
  · rintro ⟨v, hsentence⟩
    obtain ⟨p, hp⟩ := sentence_iff_exists_program.mp hsentence
    have hread := p.reads
    rw [hp] at hread
    obtain ⟨es, r, _, hu, _⟩ := hread.of_append
    exact ⟨es, r, hu⟩
  · rintro ⟨es, r, hread⟩
    obtain ⟨ts, fs, hrest⟩ := exists_reads_statement r
    have hconsumed := (hread.trans hrest).consumed consumed_start
    obtain ⟨p, hp⟩ := hconsumed.exists_program rfl (Nat.succ_ne_zero _)
    exact ⟨ts, sentence_iff_exists_program.mpr ⟨p, hp⟩⟩

/-! ## Where the parser stops -/

namespace Reading

/-- The parser has read `u` and stops at `t`. -/
structure Stops (u : List Token) (es : List Event) (r : Reading) (t : Token) : Prop where
  /-- It has read `u`. -/
  reads : Reads start u es r
  /-- The token does not lead on. -/
  stuck : ∀ r', (r.advance t).progress ≠ .resume r'

variable {u w : List Token} {rest : List Token}

/-- The end token never leads on. -/
theorem Move.ne_eof (h : Move r t es r') : t ≠ .eof := by
  cases h with
  | sign n goal term outer sign => cases sign <;> nofun
  | _ => nofun

theorem Reads.eof_not_mem (h : Reads r ts es r') : .eof ∉ ts := by
  induction h with
  | refl r => simp
  | step first _ ih => simp [first.ne_eof.symm, ih]

/-- All tokens are read, or there is one that does not lead on. -/
theorem reads_or_stuck (r : Reading) (ts : List Token) :
    (∃ es r', Reads r ts es r') ∨
      ∃ u t rest es r', ts = u ++ t :: rest ∧ Reads r u es r' ∧
        ∀ r'', (r'.advance t).progress ≠ .resume r'' := by
  induction ts generalizing r with
  | nil => exact .inl ⟨[], r, .refl r⟩
  | cons t ts ih =>
    by_cases hmove : ∃ r', (r.advance t).progress = .resume r'
    · obtain ⟨r', hprogress⟩ := hmove
      have hfirst := move_of_progress hprogress
      rcases ih r' with ⟨es, r'', hread⟩ | ⟨u, t', rest, es, r'', rfl, hread, hstuck⟩
      · exact .inl ⟨_, r'', .step hfirst hread⟩
      · exact .inr ⟨t :: u, t', rest, _, r'', rfl, .step hfirst hread, hstuck⟩
    · exact .inr ⟨[], t, ts, [], r, rfl, .refl r, fun r' h => hmove ⟨r', h⟩⟩

/-- In every token list with an end token, the parser stops. -/
theorem exists_stop (w : List Token) :
    ∃ u t rest es r, w ++ [.eof] = u ++ t :: rest ∧ Stops u es r t := by
  rcases reads_or_stuck start (w ++ [.eof]) with ⟨es, r, hread⟩ |
    ⟨u, t, rest, es, r, heq, hread, hstuck⟩
  · exact absurd (by simp) hread.eof_not_mem
  · exact ⟨u, t, rest, es, r, heq, hread, hstuck⟩

/-- The token that stops the parser does not stand behind `u` in any viable prefix. -/
theorem Stops.not_viable (h : Stops u es r t) (v : List Token) : ¬ Viable (u ++ t :: v) := by
  intro hviable
  obtain ⟨fs, r₂, hread⟩ := viable_iff_reads.mp hviable
  obtain ⟨_, r₁, _, hu, htail⟩ := hread.of_append
  obtain rfl := h.reads.unique hu
  cases htail with
  | step first _ => exact h.stuck _ (congrArg Step.progress first.advance_eq)

/-- **The parser stops behind the longest viable prefix.** -/
theorem Stops.longestViable (h : Stops u es r t) (heq : w ++ [.eof] = u ++ t :: rest) :
    LongestViable u w := by
  have hlen : u.length ≤ w.length := by
    have hlengths := congrArg List.length heq
    simp only [List.length_append, List.length_cons, List.length_nil] at hlengths
    omega
  have hfront : u <+: w := by
    refine List.prefix_of_prefix_length_le ?_ (List.prefix_append w [.eof]) hlen
    exact ⟨t :: rest, heq.symm⟩
  refine ⟨hfront, viable_iff_reads.mpr ⟨es, r, h.reads⟩, fun u' hu' hviable => ?_⟩
  refine Nat.le_of_not_lt fun hlonger => ?_
  -- a longer prefix would have the stopping token in it
  have hsub : u ++ [t] <+: u' := by
    refine List.prefix_of_prefix_length_le ?_ (hu'.trans (List.prefix_append w [.eof])) ?_
    · exact ⟨rest, by rw [heq]; simp⟩
    · rw [List.length_append, List.length_singleton]
      omega
  obtain ⟨v, rfl⟩ := hsub
  rw [List.append_assoc, List.singleton_append] at hviable
  exact h.not_viable v hviable

/-- **The parser accepts if all in front of the end token is a sentence**, and otherwise something
else was due. -/
theorem Stops.sentence_iff (h : Stops u es r t) (heq : w ++ [.eof] = u ++ t :: rest)
    (hw : .eof ∉ w) : Sentence w ↔ (r.advance t).progress = .accepted := by
  have hlongest := h.longestViable heq
  constructor
  · intro hsentence
    have hu : u = w := by
      refine hlongest.front.eq_of_length_le (hlongest.longest w (List.prefix_refl w) ?_)
      exact ⟨[], by rwa [List.append_nil]⟩
    subst hu
    obtain ⟨rfl, -⟩ := List.cons.inj (List.append_cancel_left heq)
    obtain ⟨p, rfl⟩ := sentence_iff_exists_program.mp hsentence
    obtain rfl := h.reads.unique p.reads
    refine advance_accepted_iff.mpr ⟨rfl, rfl, fun hzero => p.nonempty ?_⟩
    exact List.length_eq_zero_iff.mp hzero
  · intro haccepted
    obtain ⟨rfl, hposition, hcomplete⟩ := advance_accepted_iff.mp haccepted
    have hu : u = w := by
      rcases List.eq_nil_or_concat rest with rfl | ⟨rest, x, rfl⟩
      · exact (List.append_inj' heq rfl).1.symm
      · rw [List.concat_eq_append, ← List.cons_append, ← List.append_assoc] at heq
        obtain ⟨rfl, -⟩ := List.append_inj' heq rfl
        exact absurd (by simp) hw
    subst hu
    obtain ⟨p, hp⟩ := (h.reads.consumed consumed_start).exists_program hposition hcomplete
    exact sentence_iff_exists_program.mpr ⟨p, hp⟩

/-! ## What is shifted

The tokens that a parse shifts are those it has read: every move shifts its token, and where the
parser stops, nothing more is shifted. -/

variable {r r' : Reading} {t : Token} {ts : List Token} {es : List Event}

theorem Move.shiftedTokens (h : Move r t es r') : shiftedTokens es = [t] := by
  cases h <;> rfl

theorem Reads.shiftedTokens (h : Reads r ts es r') : shiftedTokens es = ts := by
  induction h with
  | refl r => rfl
  | step first _ ih => rw [shiftedTokens_append, first.shiftedTokens, ih, List.singleton_append]

theorem shiftedTokens_of_stuck (h : ∀ r', (r.advance t).progress ≠ .resume r') :
    shiftedTokens (r.advance t).events = [] := by
  cases hprogress : (r.advance t).progress with
  | resume r' => exact absurd hprogress (h r')
  | accepted =>
    obtain ⟨rfl, hposition, hcomplete⟩ := advance_accepted_iff.mp hprogress
    obtain ⟨position, n⟩ := r
    obtain rfl : position = .statement := hposition
    rw [advance_eof n hcomplete, List.eq_nil_iff_forall_not_mem]
    intro t' ht'
    simp [mem_shiftedTokens, closingEvents] at ht'
  | expected what =>
    rcases events_of_expected hprogress with hnone | ⟨goal, term, outer, -, hevents | ⟨-, hevents⟩⟩
    · rw [hnone]
      rfl
    · rw [hevents]
      rfl
    · rw [hevents]
      rfl

/-- The events of a parse that stops are those of the stretch it has read and of the token at which
it stops. -/
theorem Stops.eventsFrom_eq (h : Stops u es r t) (rest : List Token) :
    start.eventsFrom (u ++ t :: rest) = es ++ (r.advance t).events := by
  rw [h.reads.eventsFrom_append, eventsFrom]
  cases hprogress : (r.advance t).progress with
  | resume r' => exact absurd hprogress (h.stuck r')
  | accepted => rw [List.append_nil]
  | expected what => rw [List.append_nil]

theorem Stops.shiftedTokens (h : Stops u es r t) :
    shiftedTokens (es ++ (r.advance t).events) = u := by
  rw [shiftedTokens_append, h.reads.shiftedTokens, shiftedTokens_of_stuck h.stuck, List.append_nil]

end Reading

/-- A program is read up to the end token. -/
theorem Program.stops (p : Program) :
    Reading.Stops p.tokens (Statement.listEvents p.statements)
      ⟨.statement, p.statements.length⟩ .eof :=
  ⟨p.reads, by simp [Reading.advance_eof _ p.length_ne_zero]⟩

end StraightLine
