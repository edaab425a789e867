import Mathlib
import StraightLine.Artifact
import StraightLine.Proofs.Concatenation
import StraightLine.Proofs.Declarations
import StraightLine.Proofs.EventStream
import StraightLine.Proofs.Outline

/-!
# Listings can be read in one way only

The tokens, the code and the assembly of a compilation are written down one item to a line. The text
determines the items, since an item has no line break in it, and an item of each kind is determined
by its line.

A token is the name of its kind up to the first comma, and its text behind it. An instruction and a
line of assembly are a word, a space, and fields with commas between them. Fields have letters,
digits, `$` and `-` only, so the space and the commas are where they seem to be. Of the fields, a
temporary begins with `$`, a number with `-` or a digit, and a name with a letter. The last is not
a matter of the code: a variable with the name `$0` would be listed like a temporary. It is a matter
of the lexer, from which all names in the code come.

## Main definitions

* `ClearListing` — items whose lines tell them apart
* `FieldLine` — a word with fields
* `Instr.WellNamed` — the names in an instruction are words

## Main results

* `ClearListing.eq_of_unlines` — the text of a listing determines its items
* `FieldLine.eq_of_text` — a line determines its word and its fields
* `clearListing_tokens`, `clearListing_code`, `clearListing_assembly` — the three listings
* `ident_of_named` — the names in the code are names in the source
* `listings_unambiguous` — the listings of compilations
-/

namespace StraightLine

/-! ## Lines -/

/-- A text is cut in one way at the first of its separators. -/
theorem append_cons_inj {front front' back back' : List Char} {c : Char} (h : c ∉ front)
    (h' : c ∉ front') (heq : front ++ c :: back = front' ++ c :: back') :
    front = front' ∧ back = back' := by
  induction front generalizing front' with
  | nil =>
    cases front' with
    | nil => exact ⟨rfl, (List.cons.inj heq).2⟩
    | cons d front' =>
      obtain ⟨rfl, -⟩ := List.cons.inj heq
      simp at h'
  | cons d front ih =>
    cases front' with
    | nil =>
      obtain ⟨rfl, -⟩ := List.cons.inj heq
      simp at h
    | cons d' front' =>
      obtain ⟨rfl, hrest⟩ := List.cons.inj heq
      rw [List.mem_cons, not_or] at h h'
      obtain ⟨rfl, hback⟩ := ih h.2 h'.2 hrest
      exact ⟨rfl, hback⟩

theorem toList_unlines_cons (item : String) (items : List String) :
    (unlines (item :: items)).toList = item.toList ++ '\n' :: (unlines items).toList := by
  simp [unlines]

theorem unlines_cons_ne_nil (item : String) (items : List String) :
    unlines (item :: items) ≠ unlines [] := by
  intro heq
  have hlists := congrArg String.toList heq
  rw [toList_unlines_cons] at hlists
  simp [unlines] at hlists

/-- Items with a property have one line each, and the line determines the item. -/
structure ClearListing {α : Type} (p : α → Prop) (render : α → String) : Prop where
  /-- No line break stands in an item. -/
  oneLine : ∀ a, p a → '\n' ∉ (render a).toList
  /-- Different items look different. -/
  injective : ∀ a b, p a → p b → render a = render b → a = b

/-- **The text of a listing determines its items.** -/
theorem ClearListing.eq_of_unlines {α : Type} {p : α → Prop} {render : α → String}
    (h : ClearListing p render) {xs ys : List α} (hxs : ∀ a ∈ xs, p a) (hys : ∀ b ∈ ys, p b)
    (heq : unlines (xs.map render) = unlines (ys.map render)) : xs = ys := by
  induction xs generalizing ys with
  | nil =>
    cases ys with
    | nil => rfl
    | cons y ys => exact absurd heq.symm (unlines_cons_ne_nil _ _)
  | cons x xs ih =>
    cases ys with
    | nil => exact absurd heq (unlines_cons_ne_nil _ _)
    | cons y ys =>
      rw [List.forall_mem_cons] at hxs hys
      have hlists := congrArg String.toList heq
      rw [List.map_cons, List.map_cons, toList_unlines_cons, toList_unlines_cons] at hlists
      obtain ⟨hfirst, hothers⟩ :=
        append_cons_inj (h.oneLine x hxs.1) (h.oneLine y hys.1) hlists
      rw [h.injective x y hxs.1 hys.1 (String.toList_inj.mp hfirst),
        ih hxs.2 hys.2 (String.toList_inj.mp hothers)]

/-! ## Fields -/

/-- The characters of words and fields. -/
def isFieldChar (c : Char) : Bool :=
  isWordChar c || c == '$' || c == '-'

/-- The text has only characters of words and fields. -/
def IsField (text : String) : Prop :=
  ∀ c ∈ text.toList, isFieldChar c = true

theorem isField_of_all {text : String} (h : text.toList.all isFieldChar = true) : IsField text :=
  List.all_eq_true.mp h

theorem IsField.not_mem {text : String} {c : Char} (h : IsField text)
    (hc : isFieldChar c = false) : c ∉ text.toList := by
  intro hmem
  rw [h c hmem] at hc
  cases hc

theorem IsField.append {text text' : String} (h : IsField text) (h' : IsField text') :
    IsField (text ++ text') := by
  intro c hc
  rw [String.toList_append, List.mem_append] at hc
  exact hc.elim (h c) (h' c)

/-- Fields with commas between them determine the fields, unless there are none. -/
theorem intercalate_inj {fs gs : List String} (hfs : ∀ f ∈ fs, IsField f)
    (hgs : ∀ g ∈ gs, IsField g) (hf : fs ≠ []) (hg : gs ≠ [])
    (heq : ", ".intercalate fs = ", ".intercalate gs) : fs = gs := by
  have hcomma : isFieldChar ',' = false := rfl
  have hlist : ∀ (f f' : String) (rest : List String), (", ".intercalate (f :: f' :: rest)).toList =
      f.toList ++ ',' :: ' ' :: (", ".intercalate (f' :: rest)).toList := by
    intro f f' rest
    simp [String.intercalate_cons_cons]
  induction fs generalizing gs with
  | nil => exact absurd rfl hf
  | cons f fs ih =>
    cases gs with
    | nil => exact absurd rfl hg
    | cons g gs =>
      rw [List.forall_mem_cons] at hfs hgs
      have hlists := congrArg String.toList heq
      cases fs with
      | nil =>
        cases gs with
        | nil => simpa using heq
        | cons g' gs =>
          -- a single field has no comma, but two have one between them
          rw [String.intercalate_singleton, hlist] at hlists
          exact absurd (by simp [hlists]) (hfs.1.not_mem hcomma)
      | cons f' fs =>
        cases gs with
        | nil =>
          rw [String.intercalate_singleton, hlist] at hlists
          exact absurd (by simp [← hlists]) (hgs.1.not_mem hcomma)
        | cons g' gs =>
          rw [hlist, hlist] at hlists
          obtain ⟨hfirst, hothers⟩ :=
            append_cons_inj (hfs.1.not_mem hcomma) (hgs.1.not_mem hcomma) hlists
          have hrest := String.toList_inj.mp (List.cons.inj hothers).2
          rw [String.toList_inj.mp hfirst, ih hfs.2 hgs.2 (by simp) (by simp) hrest]

/-- A word with one or more fields. -/
structure FieldLine where
  /-- The word. -/
  word : String
  /-- The fields. -/
  fields : List String
  /-- The word has no space or line break in it. -/
  word_clear : IsField word
  /-- No field has a comma or a line break in it. -/
  fields_clear : ∀ f ∈ fields, IsField f
  /-- There is a field. -/
  fields_ne_nil : fields ≠ []

namespace FieldLine

/-- The word, a space, and the fields with commas between them. -/
def text (l : FieldLine) : String :=
  l.word ++ " " ++ ", ".intercalate l.fields

/-- **A line determines its word and its fields.** -/
theorem eq_of_text {l m : FieldLine} (h : l.text = m.text) :
    l.word = m.word ∧ l.fields = m.fields := by
  have hspace : isFieldChar ' ' = false := rfl
  have hlist : ∀ k : FieldLine,
      k.text.toList = k.word.toList ++ ' ' :: (", ".intercalate k.fields).toList := by
    intro k
    simp [text]
  have hlists := congrArg String.toList h
  rw [hlist, hlist] at hlists
  obtain ⟨hword, hfields⟩ :=
    append_cons_inj (l.word_clear.not_mem hspace) (m.word_clear.not_mem hspace) hlists
  exact ⟨String.toList_inj.mp hword, intercalate_inj l.fields_clear m.fields_clear l.fields_ne_nil
    m.fields_ne_nil (String.toList_inj.mp hfields)⟩

theorem newline_not_mem_intercalate {fs : List String} (hfs : ∀ f ∈ fs, IsField f) :
    '\n' ∉ (", ".intercalate fs).toList := by
  have hnewline : isFieldChar '\n' = false := rfl
  induction fs with
  | nil => simp
  | cons f fs ih =>
    rw [List.forall_mem_cons] at hfs
    have hfirst := hfs.1.not_mem hnewline
    cases fs with
    | nil => simpa using hfirst
    | cons f' fs =>
      rw [String.intercalate_cons_cons]
      simpa [hfirst] using ih hfs.2

/-- A word with fields stands on one line. -/
theorem newline_not_mem (l : FieldLine) : '\n' ∉ l.text.toList := by
  have hword := l.word_clear.not_mem (c := '\n') rfl
  have hfields := newline_not_mem_intercalate l.fields_clear
  rw [text, String.toList_append, String.toList_append, List.mem_append, List.mem_append]
  rintro ((hmem | hspace) | hmem)
  · exact hword hmem
  · exact absurd hspace (by decide)
  · exact hfields hmem

end FieldLine

/-! ## Numbers -/

theorem isFieldChar_of_isDigit {c : Char} (h : c.isDigit = true) : isFieldChar c = true := by
  simp [isFieldChar, isWordChar, h]

theorem isField_ofNat (n : Nat) : IsField (Decimal.ofNat n) := by
  intro c hc
  rw [Decimal.ofNat, String.toList_ofList] at hc
  exact isFieldChar_of_isDigit (Decimal.isDigit_of_mem_digits hc)

theorem ofNat_injective : Function.Injective Decimal.ofNat := by
  intro m n h
  have hdigits : Decimal.digits m = Decimal.digits n := String.ofList_inj.mp h
  have hvalue := Decimal.digitsValue?_digits m
  rw [hdigits, Decimal.digitsValue?_digits] at hvalue
  exact (Option.some.inj hvalue).symm

/-- A listed word begins with a digit or with `-`, and digits follow. -/
theorem toList_renderWord (w : Int32) : ∃ c cs, (renderWord w).toList = c :: cs ∧
    (c = '-' ∨ c.isDigit = true) ∧ ∀ d ∈ cs, d.isDigit = true := by
  have hnat : ∀ n, ∃ c cs, Decimal.digits n = c :: cs ∧ c.isDigit = true ∧
      ∀ d ∈ cs, d.isDigit = true := by
    intro n
    obtain ⟨c, cs, hcs⟩ := List.exists_cons_of_ne_nil (Decimal.digits_ne_nil n)
    have hdigits : ∀ d ∈ c :: cs, d.isDigit = true := fun d hd =>
      Decimal.isDigit_of_mem_digits (hcs ▸ hd)
    exact ⟨c, cs, hcs, List.forall_mem_cons.mp hdigits⟩
  rw [renderWord, Decimal.ofInt, String.toList_ofList]
  cases w.toInt with
  | ofNat n =>
    obtain ⟨c, cs, hcs, hc, hrest⟩ := hnat n
    exact ⟨c, cs, hcs, .inr hc, hrest⟩
  | negSucc n =>
    refine ⟨'-', Decimal.digits (n + 1), rfl, .inl rfl, fun d hd => ?_⟩
    exact Decimal.isDigit_of_mem_digits hd

theorem isField_renderWord (w : Int32) : IsField (renderWord w) := by
  obtain ⟨c, cs, hcs, hc, hrest⟩ := toList_renderWord w
  intro d hd
  rw [hcs, List.mem_cons] at hd
  rcases hd with rfl | hd
  · rcases hc with rfl | hdigit
    · rfl
    · exact isFieldChar_of_isDigit hdigit
  · exact isFieldChar_of_isDigit (hrest d hd)

theorem renderWord_injective : Function.Injective renderWord := by
  intro v w h
  have hvalue := Decimal.toInt?_ofInt v.toInt
  rw [show Decimal.ofInt v.toInt = Decimal.ofInt w.toInt from h, Decimal.toInt?_ofInt] at hvalue
  exact Int32.toInt_inj.mp (Option.some.inj hvalue).symm

/-! ## Variables and operands -/

theorem isFieldChar_of_isWordChar {c : Char} (h : isWordChar c = true) : isFieldChar c = true := by
  simp [isFieldChar, h]

theorem isField_of_isWord {name : String} (h : isWord name.toList = true) : IsField name :=
  fun c hc => isFieldChar_of_isWordChar (isWordChar_of_isWord h c hc)

/-- A word begins with a letter, so it is no text that does not. -/
theorem ne_of_isWord {name text : String} {c : Char} {cs : List Char}
    (h : isWord name.toList = true) (htext : text.toList = c :: cs) (hc : isLetter c = false) :
    name ≠ text := by
  rintro rfl
  rw [htext, isWord, hc] at h
  cases h

theorem toList_render_temp (id : UInt32) :
    (Var.temp id).render.toList = '$' :: Decimal.digits id.toNat := by
  simp [Var.render, Decimal.ofNat]

/-- **A name is not listed like a temporary.** -/
theorem render_named_ne_temp {name : String} (h : isWord name.toList = true) (id : UInt32) :
    (Var.named name).render ≠ (Var.temp id).render :=
  ne_of_isWord h (toList_render_temp id) rfl

/-- **A name is not listed like a number.** -/
theorem render_named_ne_word {name : String} (h : isWord name.toList = true) (w : Int32) :
    (Var.named name).render ≠ renderWord w := by
  obtain ⟨c, cs, hcs, hc, -⟩ := toList_renderWord w
  refine ne_of_isWord h hcs ?_
  rcases hc with rfl | hdigit
  · rfl
  · exact isLetter_of_isDigit hdigit

theorem render_temp_ne_word (id : UInt32) (w : Int32) :
    (Var.temp id).render ≠ renderWord w := by
  intro heq
  obtain ⟨c, cs, hcs, hc, -⟩ := toList_renderWord w
  rw [← heq, toList_render_temp] at hcs
  obtain ⟨rfl, -⟩ := List.cons.inj hcs
  rcases hc with hdash | hdigit
  · cases hdash
  · cases hdigit

/-- The name of a variable, if it has one, is a word. -/
def Var.WellNamed : Var → Prop
  | .named name => isWord name.toList = true
  | .temp _ => True

namespace Var

variable {v v' : Var}

theorem WellNamed.isField (h : v.WellNamed) : IsField v.render := by
  cases v with
  | named name => exact isField_of_isWord h
  | temp id =>
    have hdollar : IsField "$" := isField_of_all rfl
    exact hdollar.append (isField_ofNat id.toNat)

theorem WellNamed.eq_of_render (h : v.WellNamed) (h' : v'.WellNamed) (heq : v.render = v'.render) :
    v = v' := by
  cases v with
  | named name =>
    cases v' with
    | named name' => exact congrArg Var.named heq
    | temp id => exact absurd heq (render_named_ne_temp h id)
  | temp id =>
    cases v' with
    | named name => exact absurd heq.symm (render_named_ne_temp h' id)
    | temp id' =>
      have hnumber := ofNat_injective ((String.append_right_inj "$").mp heq)
      exact congrArg Var.temp (UInt32.toNat_inj.mp hnumber)

end Var

/-- The variable of an operand, if it is one, is well named. -/
def Operand.WellNamed : Operand → Prop
  | .imm _ => True
  | .var v => v.WellNamed

namespace Operand

variable {o o' : Operand}

theorem WellNamed.isField (h : o.WellNamed) : IsField o.render := by
  cases o with
  | imm w => exact isField_renderWord w
  | var v => exact Var.WellNamed.isField h

theorem render_imm_ne_var {v : Var} (h : v.WellNamed) (w : Int32) : renderWord w ≠ v.render := by
  cases v with
  | named name => exact (render_named_ne_word h w).symm
  | temp id => exact (render_temp_ne_word id w).symm

/-- **An operand is told by its listing.** -/
theorem WellNamed.eq_of_render (h : o.WellNamed) (h' : o'.WellNamed)
    (heq : o.render = o'.render) : o = o' := by
  cases o with
  | imm w =>
    cases o' with
    | imm w' => exact congrArg Operand.imm (renderWord_injective heq)
    | var v => exact absurd heq (render_imm_ne_var h' w)
  | var v =>
    cases o' with
    | imm w => exact absurd heq.symm (render_imm_ne_var h w)
    | var v' => exact congrArg Operand.var (Var.WellNamed.eq_of_render h h' heq)

theorem eq_of_map_render {os os' : List Operand} (h : ∀ o ∈ os, o.WellNamed)
    (h' : ∀ o ∈ os', o.WellNamed) (heq : os.map render = os'.map render) : os = os' := by
  induction os generalizing os' with
  | nil => exact (List.map_eq_nil_iff.mp heq.symm).symm
  | cons o os ih =>
    cases os' with
    | nil => cases heq
    | cons o' os' =>
      rw [List.forall_mem_cons] at h h'
      obtain ⟨hfirst, hothers⟩ := List.cons.inj heq
      rw [h.1.eq_of_render h'.1 hfirst, ih h.2 h'.2 hothers]

end Operand

/-! ## Instructions -/

theorem ArithOp.name_injective : Function.Injective ArithOp.name := by
  intro op op' h
  cases op <;> cases op' <;> first | rfl | exact absurd h (by decide)

theorem ArithOp.isField_name (op : ArithOp) : IsField op.name := by
  cases op <;> exact isField_of_all rfl

namespace Instr

/-- The word of an instruction in a listing. -/
def word : Instr → String
  | mov .. => "Mov"
  | arith op .. => op.name
  | ret _ => "Ret"

/-- What stands behind the word: the destination, as an operand, and the operands that are read. -/
def operands : Instr → List Operand
  | mov dest src => [.var dest, src]
  | arith _ dest lhs rhs => [.var dest, lhs, rhs]
  | ret value => [value]

/-- The names in an instruction are words. -/
def WellNamed (i : Instr) : Prop :=
  ∀ o ∈ i.operands, o.WellNamed

/-- A variable behind the word is a variable of the instruction. -/
theorem mem_vars_of_mem_operands {i : Instr} {v : Var} (h : .var v ∈ i.operands) : v ∈ i.vars := by
  cases i with
  | mov dest src =>
    simp only [operands, List.mem_cons, Operand.var.injEq, List.not_mem_nil, or_false] at h
    rcases h with rfl | rfl <;> simp [vars, reads, dest?, Operand.vars]
  | arith op dest lhs rhs =>
    simp only [operands, List.mem_cons, Operand.var.injEq, List.not_mem_nil, or_false] at h
    rcases h with rfl | rfl | rfl <;> simp [vars, reads, dest?, Operand.vars]
  | ret value =>
    obtain rfl := List.mem_singleton.mp h
    simp [vars, reads, dest?, Operand.vars]

theorem isField_word (i : Instr) : IsField i.word := by
  cases i with
  | mov dest src => exact show IsField "Mov" from isField_of_all rfl
  | arith op dest lhs rhs => exact op.isField_name
  | ret value => exact show IsField "Ret" from isField_of_all rfl

/-- An instruction is its word and its operands. -/
theorem eq_of_word_of_operands {i j : Instr} (hword : i.word = j.word)
    (hoperands : i.operands = j.operands) : i = j := by
  cases i <;> cases j <;> simp_all [word, operands, ArithOp.name_injective.eq_iff]

/-- An instruction as a word with fields. -/
def WellNamed.fieldLine {i : Instr} (h : i.WellNamed) : FieldLine where
  word := i.word
  fields := i.operands.map Operand.render
  word_clear := i.isField_word
  fields_clear := by
    intro f hf
    obtain ⟨o, ho, rfl⟩ := List.mem_map.mp hf
    exact (h o ho).isField
  fields_ne_nil := by cases i <;> simp [operands]

theorem WellNamed.text_fieldLine {i : Instr} (h : i.WellNamed) : h.fieldLine.text = i.render := by
  cases i <;>
    simp [fieldLine, FieldLine.text, word, operands, render, Operand.render, String.append_assoc]

end Instr

/-- **Code whose names are words can be read in one way only.** -/
theorem clearListing_code : ClearListing Instr.WellNamed Instr.render where
  oneLine i h := by
    rw [← h.text_fieldLine]
    exact h.fieldLine.newline_not_mem
  injective i j h h' heq := by
    rw [← h.text_fieldLine, ← h'.text_fieldLine] at heq
    obtain ⟨hword, hfields⟩ := FieldLine.eq_of_text heq
    exact Instr.eq_of_word_of_operands hword (Operand.eq_of_map_render h h' hfields)

-- names that are not words can be mistaken
example : (Instr.ret (.var (.named "$0"))).render = (Instr.ret (.var (.temp 0))).render := by
  decide

/-! ## Assembly -/

theorem Register.isField_render (r : Register) : IsField r.render := by
  cases r with
  | t number =>
    have ht : IsField "t" := isField_of_all rfl
    exact ht.append (isField_ofNat number)
  | a0 => exact isField_of_all rfl

theorem Register.render_injective : Function.Injective Register.render := by
  have hne : ∀ number, (Register.t number).render ≠ Register.a0.render := by
    intro number heq
    have hlists := congrArg String.toList heq
    simp [Register.render] at hlists
  intro r r' heq
  cases r with
  | t number =>
    cases r' with
    | t number' =>
      have hnumber := ofNat_injective ((String.append_right_inj "t").mp heq)
      exact congrArg Register.t hnumber
    | a0 => exact absurd heq (hne number)
  | a0 =>
    cases r' with
    | t number => exact absurd heq.symm (hne number)
    | a0 => rfl

theorem ArithOp.mnemonic_injective : Function.Injective ArithOp.mnemonic := by
  intro op op' h
  cases op <;> cases op' <;> first | rfl | exact absurd h (by decide)

theorem ArithOp.isField_mnemonic (op : ArithOp) : IsField op.mnemonic := by
  cases op <;> exact isField_of_all rfl

namespace AsmLine

/-- The word of a line. -/
def word : AsmLine → String
  | li .. => "li"
  | mv .. => "mv"
  | addi .. => "addi"
  | arith op .. => op.mnemonic

/-- What stands behind the word. -/
def fields : AsmLine → List String
  | li rd imm => [rd.render, renderWord imm]
  | mv rd rs => [rd.render, rs.render]
  | addi rd rs1 imm => [rd.render, rs1.render, renderWord imm]
  | arith _ rd rs1 rs2 => [rd.render, rs1.render, rs2.render]

/-- A line is its word and its fields. -/
theorem eq_of_word_of_fields {l m : AsmLine} (hword : l.word = m.word)
    (hfields : l.fields = m.fields) : l = m := by
  -- the only two forms that do not differ in the number of fields or in a fixed word
  have haddi : ∀ op : ArithOp, op.mnemonic ≠ "addi" ∧ "addi" ≠ op.mnemonic := by
    rintro (_ | _ | _) <;> decide
  cases l <;> cases m <;>
    simp_all [word, fields, ArithOp.mnemonic_injective.eq_iff, Register.render_injective.eq_iff,
      renderWord_injective.eq_iff]

theorem isField_word (l : AsmLine) : IsField l.word := by
  cases l with
  | li rd imm => exact show IsField "li" from isField_of_all rfl
  | mv rd rs => exact show IsField "mv" from isField_of_all rfl
  | addi rd rs1 imm => exact show IsField "addi" from isField_of_all rfl
  | arith op rd rs1 rs2 => exact op.isField_mnemonic

/-- A line as a word with fields. -/
def fieldLine (l : AsmLine) : FieldLine where
  word := l.word
  fields := l.fields
  word_clear := l.isField_word
  fields_clear := by
    cases l <;> simp [fields, Register.isField_render, isField_renderWord]
  fields_ne_nil := by cases l <;> simp [fields]

theorem text_fieldLine (l : AsmLine) : l.fieldLine.text = l.render := by
  cases l <;> simp [fieldLine, FieldLine.text, word, fields, render, String.append_assoc]

end AsmLine

/-- **Assembly can be read in one way only.** -/
theorem clearListing_assembly : ClearListing (fun _ => True) AsmLine.render where
  oneLine l _ := by
    rw [← l.text_fieldLine]
    exact l.fieldLine.newline_not_mem
  injective l m _ _ heq := by
    rw [← l.text_fieldLine, ← m.text_fieldLine] at heq
    obtain ⟨hword, hfields⟩ := FieldLine.eq_of_text heq
    exact AsmLine.eq_of_word_of_fields hword hfields

/-! ## Tokens -/

namespace Token

/-- All kinds of tokens. -/
def Kind.all : List Kind :=
  [.ident, .literal, .keyword .int, .keyword .ret, .assign, .equal, .plus, .minus, .times, .power,
    .slash, .openParen, .closeParen, .semicolon, .eof]

theorem Kind.mem_all (k : Kind) : k ∈ all := by
  rcases k with _ | _ | (_ | _) | _ | _ | _ | _ | _ | _ | _ | _ | _ | _ | _ <;> decide

theorem Kind.name_injective : Function.Injective Kind.name := by
  have hall : ∀ k ∈ all, ∀ l ∈ all, k.name = l.name → k = l := by decide
  exact fun k l => hall k k.mem_all l l.mem_all

/-- The name of a kind has no comma and no line break in it. -/
theorem Kind.name_clear (k : Kind) : ',' ∉ k.name.toList ∧ '\n' ∉ k.name.toList := by
  have hall : ∀ k ∈ all, ',' ∉ k.name.toList ∧ '\n' ∉ k.name.toList := by decide
  exact hall k k.mem_all

/-- A token is its kind and its text. -/
theorem eq_of_kind_of_text {t u : Token} (hkind : t.kind = u.kind)
    (htext : t.text?.getD "" = u.text?.getD "") : t = u := by
  cases t <;> cases u <;> simp_all [kind, text?]

theorem toList_render (t : Token) : t.render.toList =
    '(' :: (t.kind.name.toList ++ ',' :: ((t.text?.getD "").toList ++ [')'])) := by
  simp [render]

/-- Tokens that look alike are the same. The text of a token may have any characters here, since the
first comma in a line stands in front of it. -/
theorem render_injective : Function.Injective render := by
  intro t u heq
  have hlists := congrArg String.toList heq
  rw [toList_render, toList_render] at hlists
  obtain ⟨hkind, htext⟩ := append_cons_inj t.kind.name_clear.1
    u.kind.name_clear.1 (List.cons.inj hlists).2
  refine eq_of_kind_of_text (Kind.name_injective (String.toList_inj.mp hkind)) ?_
  exact String.toList_inj.mp (List.append_cancel_right htext)

/-- The text of a token from a source has no line break in it. -/
theorem WellSpelled.isField_text {t : Token} (h : t.WellSpelled) : IsField (t.text?.getD "") := by
  cases t with
  | ident name => exact isField_of_isWord h.1
  | literal text => exact fun c hc => isFieldChar_of_isDigit (h.2 c hc)
  | _ => simp [text?, IsField]

end Token

/-- **The tokens of a source can be read in one way only.** -/
theorem clearListing_tokens :
    ClearListing (fun t => t = .eof ∨ t.WellSpelled) Token.render where
  oneLine t h := by
    have htext : IsField (t.text?.getD "") := by
      rcases h with rfl | hspelled
      · simp [Token.text?, IsField]
      · exact hspelled.isField_text
    rw [t.toList_render]
    simp [t.kind.name_clear.2, htext.not_mem (c := '\n') rfl]
  injective t u _ _ heq := Token.render_injective heq

/-! ## Names in the code -/

/-- What the observer that emits code is told brings in only names of the table. -/
theorem knows_of_deliver {es : List Event} {a a' : Analysis} (h : a.emission.Knows a.symbols)
    (hrun : (codeEmitter.deliver es).run a = (.ok (), a')) : a'.emission.Knows a.symbols := by
  induction es generalizing a with
  | nil =>
    obtain ⟨-, rfl⟩ := Action.run_pure_eq_ok.mp hrun
    exact h
  | cons e es ih =>
    obtain ⟨⟨⟩, b, hnotify, hrest⟩ := Action.run_bind_eq_ok.mp hrun
    obtain ⟨hsymbols, hstep⟩ := (codeEmitter_ends e a).1 () b hnotify
    rw [← hsymbols] at hstep h ⊢
    exact ih (hstep.knows h) hrest

section Compilation

variable {source : String} {c : Compilation}

/-- **The names in the code are names in the source.** -/
theorem ident_of_named (h : compile source = .ok c) {i : Instr} (hi : i ∈ c.code) {x : String}
    (hx : .named x ∈ i.vars) : .ident x ∈ c.tokens := by
  obtain ⟨-, ⟨a, hparse, hcode⟩, -⟩ := compile_eq_ok h
  rw [analyse, parse, Reading.run_parseFrom_eq_ok] at hparse
  obtain ⟨b, hrun, hemission⟩ := exists_deliver_codeEmitter hparse.1 rfl fun _ hy => hy
  have hstart : (Analysis.fresh c.scannedSymbols).emission.Knows c.scannedSymbols :=
    fun _ hname => by cases hname
  have hknows := knows_of_deliver hstart hrun
  have hvars : .named x ∈ b.emission.vars := by
    rw [hemission]
    rw [hcode] at hi
    exact List.mem_append_right _ (List.mem_flatMap.mpr ⟨i, hi, hx⟩)
  have hcontains : c.scannedSymbols.contains x = true := hknows x hvars
  rw [SymbolTable.contains, find?_scannedSymbols h] at hcontains
  by_contra hnot
  rw [if_neg hnot] at hcontains
  cases hcontains

theorem tokens_of_compile (h : compile source = .ok c) :
    ∀ t ∈ c.tokens, t = .eof ∨ t.WellSpelled := by
  have hlex := congrArg Prod.fst (compile_eq_ok h).1
  obtain ⟨ts, rest, htokens, hlexes, -⟩ := exists_lexes_of_tokenize hlex
  intro t ht
  rw [htokens, List.mem_append, List.mem_singleton] at ht
  exact ht.elim (fun hts => .inr (hlexes.wellSpelled t hts)) .inl

/-- The names in the code are words. -/
theorem isWord_of_named (h : compile source = .ok c) {i : Instr} (hi : i ∈ c.code) {x : String}
    (hx : .named x ∈ i.vars) : isWord x.toList = true := by
  rcases tokens_of_compile h _ (ident_of_named h hi hx) with heof | hspelled
  · cases heof
  · exact hspelled.1

theorem wellNamed_of_compile (h : compile source = .ok c) : ∀ i ∈ c.code, i.WellNamed := by
  intro i hi o ho
  cases o with
  | imm w => trivial
  | var v =>
    cases v with
    | temp id => trivial
    | named x => exact isWord_of_named h hi (Instr.mem_vars_of_mem_operands ho)

end Compilation

/-- **Listings can be read in one way only.** Compilations whose tokens are listed alike have the
same tokens; if their code is listed alike they have the same code, and likewise for assembly. No
name in the code of a compilation is listed like a temporary or like a number. -/
theorem listings_unambiguous {source source' : String} {c d : Compilation}
    (hc : compile source = .ok c) (hd : compile source' = .ok d) :
    (c.tokenFile.contents = d.tokenFile.contents → c.tokens = d.tokens) ∧
    (c.codeFile.contents = d.codeFile.contents → c.code = d.code) ∧
    (c.assemblyFile.contents = d.assemblyFile.contents → c.assembly = d.assembly) ∧
    ∀ i ∈ c.code, ∀ x, .named x ∈ i.vars →
      (∀ id, (Var.named x).render ≠ (Var.temp id).render) ∧
        ∀ w, (Var.named x).render ≠ (Operand.imm w).render := by
  refine ⟨fun htokens => ?_, fun hcode => ?_, fun hassembly => ?_, fun i hi x hx => ?_⟩
  · exact clearListing_tokens.eq_of_unlines (tokens_of_compile hc) (tokens_of_compile hd)
      (Except.ok.inj htokens)
  · exact clearListing_code.eq_of_unlines (wellNamed_of_compile hc) (wellNamed_of_compile hd)
      (Except.ok.inj hcode)
  · exact clearListing_assembly.eq_of_unlines (fun _ _ => trivial) (fun _ _ => trivial)
      (Except.ok.inj hassembly)
  · have hword := isWord_of_named hc hi hx
    exact ⟨render_named_ne_temp hword, render_named_ne_word hword⟩

theorem listings_unambiguous_difference :
    ∃ c d e, compile "t0=2-9;return t0;" = .ok c ∧ compile "t0 = 2 - 9;\nreturn t0;" = .ok d ∧
      compile "int t0; t0 = (2 - 9); return (t0);" = .ok e ∧
      c.tokens = d.tokens ∧ c.code = e.code ∧ c.assembly = e.assembly := by
  have hexists : ∀ source, (compile source).toBool = true → ∃ c, compile source = .ok c := by
    intro source hok
    rcases hcompile : compile source with err | c
    · rw [hcompile] at hok
      cases hok
    · exact ⟨c, rfl⟩
  obtain ⟨c, hc⟩ := hexists "t0=2-9;return t0;" (by decide +kernel)
  obtain ⟨d, hd⟩ := hexists "t0 = 2 - 9;\nreturn t0;" (by decide +kernel)
  obtain ⟨e, he⟩ := hexists "int t0; t0 = (2 - 9); return (t0);" (by decide +kernel)
  have htokens : (compile "t0=2-9;return t0;").map (·.tokenFile.contents) =
      (compile "t0 = 2 - 9;\nreturn t0;").map (·.tokenFile.contents) := by
    decide +kernel
  have hcode : (compile "t0=2-9;return t0;").map (·.codeFile.contents) =
      (compile "int t0; t0 = (2 - 9); return (t0);").map (·.codeFile.contents) := by
    decide +kernel
  have hassembly : (compile "t0=2-9;return t0;").map (·.assemblyFile.contents) =
      (compile "int t0; t0 = (2 - 9); return (t0);").map (·.assemblyFile.contents) := by
    decide +kernel
  rw [hc, hd] at htokens
  rw [hc, he] at hcode hassembly
  obtain ⟨hsame, -, -, -⟩ := listings_unambiguous hc hd
  obtain ⟨-, hsameCode, hsameAssembly, -⟩ := listings_unambiguous hc he
  exact ⟨c, d, e, hc, hd, he, hsame (Except.ok.inj htokens), hsameCode (Except.ok.inj hcode),
    hsameAssembly (Except.ok.inj hassembly)⟩

end StraightLine
