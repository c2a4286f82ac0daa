import Sparkboard.Csv.Record
import Sparkboard.Proofs.Text.Utf8
/-!
# Comma-separated text

The grammar of comma-separated text as a relation between records and texts (`Spells`).  A field is
written as it is, or between quotes with its own quotes doubled; commas stand between the fields of
a record and a line end behind the record.  A text that spells records is split into them
(`records_spells`).
-/

namespace Sparkboard

namespace Csv

open Utf8 (encodeChars)

/-- Can the character stand in a field without quotes? -/
def IsOrdinary (c : Char) : Prop := c ≠ ',' ∧ c ≠ '"' ∧ c ≠ '\n' ∧ c ≠ '\r'

def double (cs : List Char) : List Char :=
  cs.flatMap fun c => if c = '"' then ['"', '"'] else [c]

/-- Is the text the field, or the field in quotes?  Quotes are needed around commas, quotes and line
breaks. -/
inductive SpellsField (cs : List Char) : List Char → Prop where
  | plain (h : ∀ c ∈ cs, IsOrdinary c) : SpellsField cs cs
  | quoted : SpellsField cs ('"' :: (double cs ++ ['"']))

/-- Does the text spell the fields of a record, with commas between them? -/
inductive SpellsRecord : List (List Char) → List Char → Prop where
  | last {cs text} (hf : SpellsField cs text) : SpellsRecord [cs] text
  | next {cs text fields rest} (hf : SpellsField cs text) (hr : SpellsRecord fields rest) :
    SpellsRecord (cs :: fields) (text ++ ',' :: rest)

/-- Is this the end of a line: a line feed, or a carriage return and a line feed? -/
def IsLineEnd (e : List Char) : Prop := e = ['\n'] ∨ e = ['\r', '\n']

/-- Does the text spell the records, each with a line end of either kind behind it?  Behind the last
record it may be missing. -/
inductive Spells : List (List (List Char)) → List Char → Prop where
  | nil : Spells [] []
  | last {fields text} (hr : SpellsRecord fields text) : Spells [fields] text
  | record {fields text e records rest} (hr : SpellsRecord fields text) (he : IsLineEnd e)
    (hs : Spells records rest) : Spells (fields :: records) (text ++ (e ++ rest))

def encodeRecord (fields : List (List Char)) : Record := fields.map encodeChars

/-! ## Bytes -/

variable {c : Char} {cs text rest : List Char} {b : UInt8} {bs tail : List UInt8} {state : State}
  {field : Field} {done : List Field} {others : List Record}

/-- A byte below 128 stands only in the character that it spells. -/
theorem eq_of_mem_encode {d : Char} (hb : b ∈ String.utf8EncodeChar c) (hbd : b.toNat = d.toNat)
    (hd : d.toNat < 0x80) : c = d := by
  rcases Utf8.utf8EncodeChar_cases c with ⟨b', hencode, hb'⟩ | ⟨-, hlarge⟩
  · rw [hencode, List.mem_singleton] at hb
    rw [hb, hb'] at hbd
    exact Char.toNat_inj.1 hbd
  · have h := hlarge b hb
    omega

theorem ne_of_mem_encode {d : Char} (hb : b ∈ String.utf8EncodeChar c) (hd : d.toNat < 0x80)
    (hcd : c ≠ d) : b ≠ UInt8.ofNat d.toNat := by
  rintro rfl
  exact hcd (eq_of_mem_encode hb (by rw [UInt8.toNat_ofNat']; omega) hd)

/-- A byte of an ordinary character belongs to the field, whether this has begun or begins with it.
-/
theorem action_ordinary (h : IsOrdinary c) (hb : b ∈ String.utf8EncodeChar c)
    (hstate : state = .plain ∨ state = .atField ∨ state = .between) :
    action state b = .keep .plain := by
  obtain ⟨hcomma, hquote, hfeed, hreturn⟩ := h
  have hb1 : b ≠ comma := ne_of_mem_encode (d := ',') hb (by decide) hcomma
  have hb2 : b ≠ quote := ne_of_mem_encode (d := '"') hb (by decide) hquote
  have hb3 : b ≠ 0x0A := ne_of_mem_encode (d := '\n') hb (by decide) hfeed
  have hb4 : b ≠ 0x0D := ne_of_mem_encode (d := '\r') hb (by decide) hreturn
  rcases hstate with rfl | rfl | rfl <;> simp [action, outside, isBreak, hb1, hb2, hb3, hb4]

theorem action_quoted (h : c ≠ '"') (hb : b ∈ String.utf8EncodeChar c) :
    action .quoted b = .keep .quoted := by
  have hne : b ≠ quote := ne_of_mem_encode (d := '"') hb (by decide) h
  simp [action, hne]

/-! ## Fields -/

/-- Bytes that leave the state alone are added to the field. -/
theorem split_keep (h : ∀ b ∈ bs, action state b = .keep state) (tail : List UInt8) :
    split state field done (bs ++ tail) = split state (bs.reverse ++ field) done tail := by
  induction bs generalizing field with
  | nil => rfl
  | cons b bs ih =>
    obtain ⟨hb, hbs⟩ := List.forall_mem_cons.1 h
    rw [List.cons_append, split, hb]
    dsimp only
    rw [ih hbs, List.reverse_cons, List.append_assoc, List.singleton_append]

/-- A field without quotes, from its first character on. -/
theorem split_plain (h : ∀ c ∈ cs, IsOrdinary c) (tail : List UInt8) :
    split .plain field done (encodeChars cs ++ tail) =
      split .plain ((encodeChars cs).reverse ++ field) done tail := by
  refine split_keep (fun b hb => ?_) tail
  obtain ⟨c, hc, hb⟩ := List.mem_flatMap.1 hb
  exact action_ordinary (h c hc) hb (.inl rfl)

theorem split_quoted (cs : List Char) (tail : List UInt8) :
    split .quoted field done (encodeChars (double cs) ++ tail) =
      split .quoted ((encodeChars cs).reverse ++ field) done tail := by
  induction cs generalizing field with
  | nil => rfl
  | cons c cs ih =>
    rw [double, List.flatMap_cons, ← double, Utf8.encodeChars_append, List.append_assoc,
      Utf8.encodeChars_cons, List.reverse_append, List.append_assoc]
    split
    · next hc =>
      subst hc
      exact ih
    · next hc =>
      rw [Utf8.encodeChars_cons, Utf8.encodeChars_nil, List.append_nil,
        split_keep (fun b hb => action_quoted hc hb), ih]

/-- How the splitting can stand behind a field: it has not begun, or goes on without quotes, or its
quotes are closed. -/
def Behind (start state : State) : Prop := state = start ∨ state = .plain ∨ state = .afterQuote

theorem split_field {start : State} (h : SpellsField cs text)
    (hstart : start = .atField ∨ start = .between) (tail : List UInt8) :
    ∃ state, Behind start state ∧ split start [] done (encodeChars text ++ tail) =
      split state (encodeChars cs).reverse done tail := by
  cases h with
  | plain h =>
    cases cs with
    | nil => exact ⟨start, .inl rfl, rfl⟩
    | cons c cs =>
      refine ⟨.plain, .inr (.inl rfl), ?_⟩
      obtain ⟨hc, hcs⟩ := List.forall_mem_cons.1 h
      obtain ⟨b, bs, hencode⟩ := List.exists_cons_of_ne_nil (String.utf8EncodeChar_ne_nil (c := c))
      have hplain : ∀ x ∈ b :: bs, action .plain x = .keep .plain := fun x hx =>
        action_ordinary hc (by rwa [hencode]) (.inl rfl)
      have hfirst : action start b = .keep .plain :=
        action_ordinary hc (by simp [hencode]) (.inr hstart)
      rw [Utf8.encodeChars_cons, List.append_assoc, hencode, List.cons_append, split, hfirst]
      dsimp only
      rw [split_keep (List.forall_mem_cons.1 hplain).2, split_plain hcs]
      simp
  | quoted =>
    refine ⟨.afterQuote, .inr (.inr rfl), ?_⟩
    have hopen : action start quote = .drop .quoted := by
      rcases hstart with rfl | rfl <;> rfl
    have htext : encodeChars ('"' :: (double cs ++ ['"'])) ++ tail =
        quote :: (encodeChars (double cs) ++ quote :: tail) := by
      rw [Utf8.encodeChars_cons, Utf8.encodeChars_append]
      simp only [List.append_assoc]
      rfl
    rw [htext, split, hopen]
    dsimp only
    rw [split_quoted, List.append_nil, split]
    rfl

/-! ## Records -/

theorem split_comma {start : State} (hstart : start = .atField ∨ start = .between)
    (h : Behind start state) (tail : List UInt8) :
    split state field done (comma :: tail) = split .atField [] (field.reverse :: done) tail := by
  rcases hstart with rfl | rfl <;> rcases h with rfl | rfl | rfl <;> rfl

/-- Do these bytes end a record that has begun, and spell the other records? -/
def Ends (tail : List UInt8) (others : List Record) : Prop :=
  ∀ state, Behind .atField state → ∀ field done,
    split state field done tail = (field.reverse :: done).reverse :: others

theorem ends_nil : Ends [] [] := by
  intro state h field done
  rcases h with rfl | rfl | rfl <;> rfl

theorem ends_lineEnd {e : List Char} (he : IsLineEnd e) (tail : List UInt8) :
    Ends (encodeChars e ++ tail) (split .between [] [] tail) := by
  intro state h field done
  rcases he with rfl | rfl <;> rcases h with rfl | rfl | rfl <;> rfl

/-- A record is split into its fields.  Where no record has begun, a comma has to show that one
does: an empty line is none. -/
theorem split_record {fields : List (List Char)} (h : SpellsRecord fields text)
    (hends : Ends tail others) {start : State}
    (hstart : start = .atField ∨ start = .between ∧ 2 ≤ fields.length) :
    split start [] done (encodeChars text ++ tail) =
      (done.reverse ++ encodeRecord fields) :: others := by
  induction h generalizing start done with
  | last hf =>
    obtain rfl : start = .atField := hstart.resolve_right (by simp)
    obtain ⟨state, hstate, hsplit⟩ := split_field hf (.inl rfl) tail
    rw [hsplit, hends state hstate]
    simp [encodeRecord]
  | @next cs text fields rest hf hr ih =>
    have hstart' : start = .atField ∨ start = .between := hstart.imp_right And.left
    have htext : encodeChars (text ++ ',' :: rest) ++ tail =
        encodeChars text ++ comma :: (encodeChars rest ++ tail) := by
      rw [Utf8.encodeChars_append, Utf8.encodeChars_cons, List.append_assoc]
      rfl
    obtain ⟨state, hstate, hsplit⟩ := split_field hf hstart' (comma :: (encodeChars rest ++ tail))
    rw [htext, hsplit, split_comma hstart' hstate, ih (.inl rfl)]
    simp [encodeRecord]

theorem split_spells {records : List (List (List Char))} (h : Spells records text)
    (hlength : ∀ r ∈ records, 2 ≤ r.length) :
    split .between [] [] (encodeChars text) = records.map encodeRecord := by
  induction h with
  | nil => rfl
  | last hr =>
    have hwide := hlength _ (List.mem_singleton.2 rfl)
    rw [← List.append_nil (encodeChars _), split_record hr ends_nil (.inr ⟨rfl, hwide⟩)]
    rfl
  | @record fields text e records rest hr he hs ih =>
    obtain ⟨hwide, hothers⟩ := List.forall_mem_cons.1 hlength
    rw [Utf8.encodeChars_append, Utf8.encodeChars_append,
      split_record hr (ends_lineEnd he (encodeChars rest)) (.inr ⟨rfl, hwide⟩), ih hothers]
    rfl

/-! ## Files -/

def mark : Char := '\uFEFF'

theorem dropMark_encodeChars (h : text.head? ≠ some mark) :
    dropMark (encodeChars text) = encodeChars text := by
  unfold dropMark
  split
  · next rest heq =>
    have hdecode := Utf8.decode_encodeChars text
    have hmark : Utf8.decode (0xEF :: 0xBB :: 0xBF :: rest) = .char mark :: Utf8.decode rest :=
      Utf8.decode_utf8EncodeChar_append mark rest
    rw [heq, hmark] at hdecode
    cases text with
    | nil => cases hdecode
    | cons c text =>
      obtain ⟨hc, -⟩ := List.cons.inj hdecode
      cases hc
      exact absurd rfl h
  · rfl

/-- The records of a file are those that its text spells. -/
theorem records_spells {records : List (List (List Char))} (h : Spells records text)
    (hlength : ∀ r ∈ records, 2 ≤ r.length) (hmark : text.head? ≠ some mark) :
    Csv.records (encodeChars text) = records.map encodeRecord := by
  rw [Csv.records, dropMark_encodeChars hmark, split_spells h hlength]

end Csv

end Sparkboard
