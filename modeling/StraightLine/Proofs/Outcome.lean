import Mathlib
import StraightLine.Proofs.Agreement
import StraightLine.Proofs.Analyst
import StraightLine.Proofs.PlaceValue
import StraightLine.Proofs.SourceText
import StraightLine.Proofs.ViablePrefix

/-!
# How compiling a text ends

Of all the errors that the stages know, a text can cause only four kinds. A character that cannot
stand in a program is reported before anything else, and the first one is. Then the tokens are read
as long as they are the front of a sentence. A literal among them that is too large is reported when
it is read, so before a token further on that fits no sentence. If everything fits, the registers
may still run out.

## Main definitions

* `Token.exceedsWord` — a literal that is too large

## Main results

* `compile_eq` — compiling is one stage after another
* `fst_analyse_of_stops`, `fst_analyse_of_literal` — how the analysis of tokens ends
* `compile_of_tokens` — how compiling a text with tokens ends
* `compile_outcome` — how compiling any text ends
-/

namespace StraightLine

/-! ## Stage by stage -/

theorem Action.fst_run_ofExcept_bind {σ ε α β : Type} (x : Except ε α) (f : α → Action σ ε β)
    (s : σ) : ((Action.ofExcept x >>= f).run s).1 = (do ((f (← x)).run s).1) := by
  cases x <;> rfl

theorem fst_run_tell_bind {ε β : Type} (entries : Log) (f : Unit → Action Log ε β) (log : Log) :
    ((Log.tell entries >>= f).run log).1 = ((f ()).run (log ++ entries)).1 :=
  rfl

/-- Without the log, compiling is one stage after another. -/
theorem compile_eq (source : String) :
    compile source = (do
      let tokens ← (tokenize source .empty).1.mapError .lexical
      (analyse tokens (tokenize source .empty).2).1.mapError .ofParse
      let assembly ← (generate (analyse tokens (tokenize source .empty).2).2.code.toList).mapError
        .codegen
      return {
        tokens
        scannedSymbols := (tokenize source .empty).2
        symbols := (analyse tokens (tokenize source .empty).2).2.symbols
        code := (analyse tokens (tokenize source .empty).2).2.code.toList
        assembly }) := by
  rw [compile, compileLogged]
  simp only [fst_run_tell_bind, Action.fst_run_ofExcept_bind]
  refine bind_congr fun tokens => bind_congr fun _ => ?_
  rcases hlower : (Generator.lowerAll
      (analyse tokens (Scan.ofString source .empty).symbols).2.code.toList).run {} with ⟨e | ⟨⟩, g⟩
  · have hgen : generate (analyse tokens (tokenize source .empty).2).2.code.toList = .error e := by
      rw [generate, tokenize, hlower]
    rw [hgen]
    rfl
  · have hgen : generate (analyse tokens (tokenize source .empty).2).2.code.toList =
        .ok g.lines.toList := by
      rw [generate, tokenize, hlower]
    rw [hgen]
    rfl

section Stages

variable {source : String} {tokens : List Token} {symbols : SymbolTable} {a : Analysis}

theorem compile_of_lexError {e : LexError} (h : (tokenize source .empty).1 = .error e) :
    compile source = .error (.lexical e) := by
  rw [compile_eq, h]
  rfl

theorem compile_of_parseError {e : ParseError SemanticError}
    (hlex : tokenize source .empty = (.ok tokens, symbols))
    (h : (analyse tokens symbols).1 = .error e) : compile source = .error (.ofParse e) := by
  rw [compile_eq, hlex]
  change ((analyse tokens symbols).1.mapError CompileError.ofParse >>= _) = _
  rw [h]
  rfl

/-- Behind an analysis that succeeds, only the generator can fail. -/
theorem compile_eq_map_generate (hlex : tokenize source .empty = (.ok tokens, symbols))
    (h : analyse tokens symbols = (.ok (), a)) :
    compile source = ((generate a.code.toList).mapError .codegen).map fun assembly =>
      ⟨tokens, symbols, a.symbols, a.code.toList, assembly⟩ := by
  rw [compile_eq, hlex]
  change ((analyse tokens symbols).1.mapError CompileError.ofParse >>= _) = _
  rw [h]
  rfl

/-- Behind an analysis that succeeds, the generator decides. -/
theorem compile_of_analyse (hlex : tokenize source .empty = (.ok tokens, symbols))
    (h : analyse tokens symbols = (.ok (), a)) :
    (∃ who, generate a.code.toList = .error (.outOfRegisters who) ∧
      compile source = .error (.codegen (.outOfRegisters who))) ∨
    ∃ asm c, generate a.code.toList = .ok asm ∧ compile source = .ok c ∧ c.code = a.code.toList ∧
      c.assembly = asm := by
  have hcompile := compile_eq_map_generate hlex h
  rcases hgen : generate a.code.toList with ⟨⟨who⟩⟩ | asm
  · rw [hgen] at hcompile
    exact .inl ⟨who, rfl, hcompile⟩
  · rw [hgen] at hcompile
    exact .inr ⟨asm, _, rfl, hcompile, rfl, rfl⟩

end Stages

/-! ## Literals that are too large -/

/-- A literal that is too large for a word. -/
def Token.exceedsWord : Token → Bool
  | .literal text => 2147483647 < Decimal.integerValue text.toList
  | _ => false

theorem exists_toInt32?_of_not_exceedsWord {text : String}
    (hnumeral : (Token.literal text).IsNumeral) (h : (Token.literal text).exceedsWord = false) :
    ∃ value, Decimal.toInt32? text = some value := by
  obtain ⟨n, hn⟩ := hnumeral
  rw [Token.exceedsWord, Decimal.integerValue_of_toInt? hn, decide_eq_false_iff_not] at h
  refine ⟨Int32.ofInt n, ?_⟩
  rw [Decimal.toInt32?, hn, Option.bind_some, if_pos (by omega)]

theorem toInt32?_of_exceedsWord {text : String} (h : (Token.literal text).exceedsWord = true) :
    Decimal.toInt32? text = none := by
  rw [Token.exceedsWord, decide_eq_true_eq] at h
  rw [Decimal.toInt32?_eq_none_iff]
  rintro ⟨n, hn, -, hmax⟩
  rw [Decimal.integerValue_of_toInt? (Decimal.toInt?_eq_some_iff.mpr hn)] at h
  omega

/-! ## How an analysis ends -/

namespace Reading

variable {r r' : Reading} {t : Token} {es : List Event}

/-- A literal is reduced as soon as it has been shifted. -/
theorem Move.literal_events {text : String} (h : Move r t es r') (ht : t = .literal text) :
    ∃ more, es = .shift (.literal text) :: .reduce .literal :: more := by
  cases h with
  | literal n goal slot outer text' =>
    cases ht
    exact ⟨_, rfl⟩
  | sign n goal term outer sign => cases sign <;> cases ht
  | _ => cases ht

end Reading

section Analyse

open Reading

variable {u u₁ u₂ rest : List Token} {es : List Event} {r : Reading} {t : Token} {text : String}
  {symbols : SymbolTable}

theorem attuned_start {known : Token → Prop}
    (hnames : ∀ x, known (.ident x) → symbols.contains x = true) :
    ({ symbols } : Analysis).Attuned known Reading.start.symbols :=
  ⟨.nil, .nil, hnames⟩

/-- **Where the parser stops, the analysis ends** as the unwatched parse does, if all literals that
were read denote words. -/
theorem fst_analyse_of_stops (h : Stops u es r t)
    (hnames : ∀ x, .ident x ∈ u → symbols.contains x = true) (hharmless : Harmless (· ∈ u))
    (rest : List Token) :
    (analyse (u ++ t :: rest) symbols).1 = r.outcomeFrom (t :: rest) := by
  obtain ⟨ss, hfit, -⟩ := fitAll_advance r t
  have hshift : ∀ t', .shift t' ∈ es ++ (r.advance t).events → t' ∈ u := by
    intro t' ht'
    rwa [← mem_shiftedTokens, h.shiftedTokens] at ht'
  obtain ⟨a, ha, -⟩ :=
    (attuned_start hnames).deliver hharmless (h.reads.fitAll.append hfit) hshift
  rw [analyse, parse, run_parseFrom, h.eventsFrom_eq rest, ha]
  exact h.reads.outcomeFrom_append _

/-- **A literal that denotes no word ends the analysis** where it is read. -/
theorem fst_analyse_of_literal (h : Reads start (u₁ ++ .literal text :: u₂) es r)
    (hnames : ∀ x, .ident x ∈ u₁ → symbols.contains x = true) (hharmless : Harmless (· ∈ u₁))
    (htext : Decimal.toInt32? text = none) (rest : List Token) :
    (analyse (u₁ ++ .literal text :: rest) symbols).1 = .error (.action (.badLiteral text)) := by
  obtain ⟨es₁, r₁, es₂, hread, htail⟩ := h.of_append
  cases htail with
  | @step _ r' _ _ _ es' _ first _ =>
    obtain ⟨more, hmore⟩ := first.literal_events rfl
    obtain ⟨a, ha, -⟩ := (attuned_start hnames).deliver hharmless hread.fitAll
      fun t ht => by rwa [← mem_shiftedTokens, hread.shiftedTokens] at ht
    obtain ⟨a', ha'⟩ := a.refuses_literal htext (more ++ r'.eventsFrom rest)
    have hevents : start.eventsFrom (u₁ ++ .literal text :: rest) =
        es₁ ++ .shift (.literal text) :: .reduce .literal :: (more ++ r'.eventsFrom rest) := by
      rw [hread.eventsFrom_append, eventsFrom, first.advance_eq, hmore]
      rfl
    have hdeliver : (analyst.deliver (start.eventsFrom (u₁ ++ .literal text :: rest))).run
        { symbols } = (.error (.badLiteral text), a') := by
      rw [hevents, Observer.run_deliver_append]
      exact (Action.run_bind_of_ok ha _).trans ha'
    rw [analyse, parse, run_parseFrom, hdeliver]

end Analyse

/-! ## How compiling ends -/

section Outcome

variable {source : String} {w : List Token} {symbols : SymbolTable}

/-- How compiling a text with tokens ends: at the first literal that is too large in the longest
viable prefix, or at the token behind that prefix, or with what the generator says. -/
theorem compile_of_tokens (hlex : tokenize source .empty = (.ok (w ++ [.eof]), symbols))
    (hw : .eof ∉ w) (hnumerals : ∀ t ∈ w, t.IsNumeral)
    (hnames : ∀ x, .ident x ∈ w → symbols.contains x = true) :
    ∃ u found, LongestViable u w ∧ (w ++ [.eof])[u.length]? = some found ∧
      (∀ t, u.find? Token.exceedsWord = some t → ∃ text, t = .literal text ∧
        compile source = .error (.semantic (.badLiteral text))) ∧
      (u.find? Token.exceedsWord = none → ¬ Sentence w →
        ∃ expected, compile source = .error (.grammatical (.unexpectedToken expected found))) ∧
      (u.find? Token.exceedsWord = none → Sentence w →
        ∃ a, analyse (w ++ [.eof]) symbols = (.ok (), a)) := by
  obtain ⟨u, found, rest, es, r, heq, hstops⟩ := Reading.exists_stop w
  have hlongest := hstops.longestViable heq
  have hfound : (w ++ [.eof])[u.length]? = some found := by
    rw [heq]
    simp
  have hnames' : ∀ x, .ident x ∈ u → symbols.contains x = true := fun x hx =>
    hnames x (hlongest.front.subset hx)
  -- literals that are not too large denote words
  have hharmless : ∀ ts ⊆ u, (∀ t ∈ ts, t.exceedsWord = false) → Harmless (· ∈ ts) := by
    intro ts hts hsmall text htext
    exact exists_toInt32?_of_not_exceedsWord (hnumerals _ (hlongest.front.subset (hts htext)))
      (hsmall _ htext)
  have hfits : u.find? Token.exceedsWord = none →
      (analyse (w ++ [.eof]) symbols).1 = r.outcomeFrom (found :: rest) := by
    intro hnone
    rw [heq]
    refine fst_analyse_of_stops hstops hnames' (hharmless u (List.Subset.refl u) ?_) rest
    simpa using hnone
  refine ⟨u, found, hlongest, hfound, fun t ht => ?_, fun hnone hno => ?_,
    fun hnone hsentence => ?_⟩
  · obtain ⟨htrue, u₁, u₂, rfl, hu₁⟩ := List.find?_eq_some_iff_append.mp ht
    obtain ⟨text, rfl⟩ : ∃ text, t = .literal text := by
      cases t with
      | literal text => exact ⟨text, rfl⟩
      | _ => cases htrue
    have hanalyse : (analyse (w ++ [.eof]) symbols).1 = .error (.action (.badLiteral text)) := by
      rw [heq, List.append_assoc, List.cons_append]
      refine fst_analyse_of_literal hstops.reads (fun x hx => hnames' x (List.mem_append_left _ hx))
        (hharmless u₁ (List.subset_append_left _ _) ?_) (toInt32?_of_exceedsWord htrue) _
      simpa using hu₁
    exact ⟨text, rfl, compile_of_parseError hlex hanalyse⟩
  · have hanalyse := hfits hnone
    rw [Reading.outcomeFrom] at hanalyse
    cases hprogress : (r.advance found).progress with
    | resume r' => exact absurd hprogress (hstops.stuck r')
    | accepted => exact absurd ((hstops.sentence_iff heq hw).mpr hprogress) hno
    | expected what =>
      rw [hprogress] at hanalyse
      exact ⟨what, compile_of_parseError hlex hanalyse⟩
  · have hanalyse := hfits hnone
    rw [Reading.outcomeFrom, (hstops.sentence_iff heq hw).mp hsentence] at hanalyse
    exact ⟨_, Prod.fst_eq_iff.mp hanalyse⟩

/-- The errors that a text can cause. -/
theorem error_cases_of_compile {e : CompileError} (he : compile source = .error e) :
    (∃ c, e = .lexical (.badChar c)) ∨ (∃ text, e = .semantic (.badLiteral text)) ∨
      (∃ expected found, e = .grammatical (.unexpectedToken expected found)) ∨
        ∃ who, e = .codegen (.outOfRegisters who) := by
  obtain ⟨htokens, hbadChar⟩ := tokenize_spec source .empty
  rcases hfind : source.toList.find? (!isSourceChar ·) with _ | c
  · obtain ⟨w, hlex, hw, hnumerals, hnames⟩ := htokens hfind
    have hlex' := Prod.fst_eq_iff.mp hlex
    obtain ⟨u, found, -, -, hliteral, hsyntax, hsentence⟩ :=
      compile_of_tokens hlex' hw hnumerals hnames
    rcases hsmall : u.find? Token.exceedsWord with _ | t
    · by_cases hgrammar : Sentence w
      · obtain ⟨a, ha⟩ := hsentence hsmall hgrammar
        rcases compile_of_analyse hlex' ha with ⟨who, -, hcompile⟩ | ⟨asm, c, -, hcompile, -⟩
        · cases he.symm.trans hcompile
          exact .inr (.inr (.inr ⟨who, rfl⟩))
        · cases he.symm.trans hcompile
      · obtain ⟨expected, hcompile⟩ := hsyntax hsmall hgrammar
        cases he.symm.trans hcompile
        exact .inr (.inr (.inl ⟨expected, found, rfl⟩))
    · obtain ⟨text, -, hcompile⟩ := hliteral t hsmall
      cases he.symm.trans hcompile
      exact .inr (.inl ⟨text, rfl⟩)
  · cases he.symm.trans (compile_of_lexError (hbadChar c hfind))
    exact .inl ⟨c, rfl⟩

/-- **How compiling a text ends.** If a character cannot stand in a program, the first such
character is the error. Otherwise let `w` be the tokens in front of the end token, and `u` the
longest prefix of `w` that can be completed to a sentence. If `u` has a literal that is too large,
the first such literal is the error. If not, and `w` is no sentence, the error is the token behind
`u`. If `w` is a sentence, it is analysed, and only the registers can run out. No text causes any
other error. -/
theorem compile_outcome (source : String) :
    (∀ c, source.toList.find? (!isSourceChar ·) = some c →
      compile source = .error (.lexical (.badChar c))) ∧
    (source.toList.find? (!isSourceChar ·) = none →
      ∃ w symbols u found, tokenize source .empty = (.ok (w ++ [.eof]), symbols) ∧ .eof ∉ w ∧
        LongestViable u w ∧ (w ++ [.eof])[u.length]? = some found ∧
        (∀ t, u.find? Token.exceedsWord = some t → ∃ text, t = .literal text ∧
          compile source = .error (.semantic (.badLiteral text))) ∧
        (u.find? Token.exceedsWord = none → ¬ Sentence w →
          ∃ expected, compile source = .error (.grammatical (.unexpectedToken expected found))) ∧
        (u.find? Token.exceedsWord = none → Sentence w →
          ∃ a, analyse (w ++ [.eof]) symbols = (.ok (), a) ∧
            ((∃ who, generate a.code.toList = .error (.outOfRegisters who) ∧
              compile source = .error (.codegen (.outOfRegisters who))) ∨
            ∃ asm c, generate a.code.toList = .ok asm ∧ compile source = .ok c ∧
              c.code = a.code.toList ∧ c.assembly = asm))) ∧
    ∀ e, compile source = .error e →
      (∃ c, e = .lexical (.badChar c)) ∨ (∃ text, e = .semantic (.badLiteral text)) ∨
        (∃ expected found, e = .grammatical (.unexpectedToken expected found)) ∨
          ∃ who, e = .codegen (.outOfRegisters who) := by
  obtain ⟨htokens, hbadChar⟩ := tokenize_spec source .empty
  refine ⟨fun c hc => compile_of_lexError (hbadChar c hc), fun hnone => ?_,
    fun e he => error_cases_of_compile he⟩
  obtain ⟨w, hlex, hw, hnumerals, hnames⟩ := htokens hnone
  have hlex' := Prod.fst_eq_iff.mp hlex
  obtain ⟨u, found, hlongest, hfound, hliteral, hsyntax, hsentence⟩ :=
    compile_of_tokens hlex' hw hnumerals hnames
  refine ⟨w, _, u, found, hlex', hw, hlongest, hfound, hliteral, hsyntax, fun hsmall hw => ?_⟩
  obtain ⟨a, ha⟩ := hsentence hsmall hw
  exact ⟨a, ha, compile_of_analyse hlex' ha⟩

end Outcome

end StraightLine
