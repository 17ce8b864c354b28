import Kds.Sql.Print

/-! # Literals and names, as they are written

    What stands in the text of a statement, next to what the parser keeps of
    it. A token holds 255 characters, a name 63, and an integer is the `s64`
    that is left of its digits. A string goes up to its closing quote, or to
    the end of the text if there is none. Nothing of this is an error.
-/

open Bytes Decimal Recognise

namespace Kds

/-! ## Section 1: The text of a token -/

/-- What `lexer_read` consumes behind the blanks. -/
def written (pos : List UInt8) : List UInt8 :=
  (lexer_skip_ws pos).take ((lexer_skip_ws pos).length - (lexer_read pos).2.length)

/-- The tokens of a text, each with its own text. -/
def writtenTokens (pos : List UInt8) : List (KdsToken × List UInt8) :=
  if h : (lexer_read pos).1.type = .eof then []
  else
    have := lexer_read_lt h
    ((lexer_read pos).1, written pos) :: writtenTokens (lexer_read pos).2
termination_by pos.length

/-- The number an integer literal denotes. -/
def literalValue (text : List UInt8) : Int :=
  match text with
  | 45 :: ds => -(value ds : Int)
  | ds => (value ds : Int)

/-- The value is what the text says. -/
def ValueWritten (text : List UInt8) : KdsAstVal → Prop
  | .int v => v = literalValue text
  | .str s => text = 39 :: (s.bytes ++ [39])
  | .null => True

/-- The text fits what the parser keeps of a token of this type. -/
def Fits : KdsTokenType → List UInt8 → Prop
  | .ident, text => text.length < KDS_PARSER_NAME_MAX
  | .int_lit, text =>
      (-2 ^ 63 ≤ literalValue text ∧ literalValue text < 2 ^ 63) ∧
        (text.length < KDS_PARSER_VAL_MAX ∨ literalValue text = 0)
  | .str_lit, text =>
      ∃ body, text = 39 :: (body ++ [39]) ∧ (39 : UInt8) ∉ body ∧ body.length < KDS_PARSER_VAL_MAX
  | _, _ => True

/-! ## Section 2: The text of a statement -/

section items

variable {α : Type}

/-- Elements of `m` texts each, with one text between two of them. -/
def ItemsWritten (W : List (List UInt8) → α → Prop) (m : Nat) : List (List UInt8) → List α → Prop
  | _, [] => True
  | texts, a :: as => W (texts.take m) a ∧ ItemsWritten W m (texts.drop (m + 1)) as

end items

def NameWritten (texts : List (List UInt8)) (i : Nat) (name : CString) : Prop :=
  texts[i]? = some name.bytes

/-- `<col> <type>`. -/
def ColumnWritten (texts : List (List UInt8)) (col : KdsAstColDef) : Prop :=
  NameWritten texts 0 col.name

/-- `<val>`. -/
def ItemWritten (texts : List (List UInt8)) (val : KdsAstVal) : Prop :=
  ∃ text, texts[0]? = some text ∧ ValueWritten text val

/-- `<col> <op> <val>`. -/
def CondWritten (texts : List (List UInt8)) (cond : KdsAstCond) : Prop :=
  NameWritten texts 0 cond.col_name ∧ ∃ text, texts[2]? = some text ∧ ValueWritten text cond.val

/-- The names and the values of a statement are what its texts say. -/
def AsWritten (texts : List (List UInt8)) : KdsStmt → Prop
  | .create_table stmt =>
      -- CREATE TABLE <name> ( <col> <type> , ...
      NameWritten texts 2 stmt.table_name ∧ ItemsWritten ColumnWritten 2 (texts.drop 4) stmt.cols
  | .insert stmt =>
      -- INSERT INTO <name> VALUES ( <val> , ...
      NameWritten texts 2 stmt.table_name ∧ ItemsWritten ItemWritten 1 (texts.drop 5) stmt.values
  | .select stmt =>
      -- SELECT * FROM <name> WHERE <col> <op> <val> AND ...
      NameWritten texts 3 stmt.table_name ∧ ItemsWritten CondWritten 3 (texts.drop 5) stmt.conds
  | .show_meta => True
  | .show_alloc => True

/-! ## Section 3: What the lexer keeps -/

/-- A token and its text. -/
structure Lexed (tok : KdsToken) (text : List UInt8) : Prop where
  ident : tok.type = .ident → tok.text.bytes = text.take (KDS_PARSER_VAL_MAX - 1)
  int_lit : tok.type = .int_lit → tok.int_val = intVal (text.take (KDS_PARSER_VAL_MAX - 1)) ∧
    ∃ c ds, text = c :: ds ∧ (isDigit c = true ∨ c = 45) ∧ ∀ d ∈ ds, isDigit d = true
  str_lit : tok.type = .str_lit → ∃ body, (39 : UInt8) ∉ body ∧
    (text = 39 :: (body ++ [39]) ∨ text = 39 :: body) ∧
    tok.text.bytes = body.take (KDS_PARSER_VAL_MAX - 1)

section lexer

variable {pos text rest bs : List UInt8} {tok : KdsToken} {c : UInt8}

theorem written_eq (h : lexer_skip_ws pos = text ++ (lexer_read pos).2) : written pos = text := by
  unfold written
  rw [h, List.length_append, Nat.add_sub_cancel, List.take_left' rfl]

theorem tokText_bytes (h : (0 : UInt8) ∉ bs) :
    (tokText bs).bytes = bs.take (KDS_PARSER_VAL_MAX - 1) :=
  CString.ofBuffer_bytes fun hmem => h (List.mem_of_mem_take hmem)

theorem lexer_skip_ws_suffix (pos : List UInt8) : lexer_skip_ws pos <:+ pos := by
  induction pos using lexer_skip_ws.induct with
  | case1 pos rest h _ ih =>
    rw [lexer_skip_ws_comment h]
    have hrest : rest <:+ pos := by
      have hdrop := List.dropWhile_suffix isspace (l := pos)
      rw [h] at hdrop
      exact ((List.suffix_cons 45 rest).trans (List.suffix_cons 45 _)).trans hdrop
    exact ih.trans ((List.dropWhile_suffix _).trans hrest)
  | case2 pos hno =>
    rw [lexer_skip_ws_stop hno]
    exact List.dropWhile_suffix _

/-- A token with nothing to keep. -/
theorem Lexed.of_other (h : tok.type ≠ .ident) (h' : tok.type ≠ .int_lit)
    (h'' : tok.type ≠ .str_lit) : Lexed tok text :=
  ⟨fun ht => absurd ht h, fun ht => absurd ht h', fun ht => absurd ht h''⟩

/-- The text of a token is what is consumed for it, and the token keeps the front of it. -/
theorem lexer_read_split (hpos : lexer_skip_ws pos = c :: rest) (hnul : (0 : UInt8) ∉ c :: rest) :
    ∃ text, c :: rest = text ++ (lexer_read pos).2 ∧ Lexed (lexer_read pos).1 text := by
  -- the tokens of two characters, then the words
  have hpair : ∀ (type : KdsTokenType) (d : UInt8), rest.headD 0 = 61 → type ≠ .ident →
      type ≠ .int_lit → type ≠ .str_lit →
      ∃ text, c :: rest = text ++ rest.drop 1 ∧ Lexed ⟨type, tokText [d, 61], 0⟩ text := by
    intro type d hhead h₁ h₂ h₃
    cases rest with
    | nil => exact absurd hhead (by decide)
    | cons e rest =>
      obtain rfl : e = 61 := hhead
      exact ⟨[c, 61], rfl, .of_other h₁ h₂ h₃⟩
  have hrun : ∀ type : KdsTokenType, type ≠ .int_lit → type ≠ .str_lit →
      ∃ text, c :: rest = text ++ rest.dropWhile isWordChar ∧
        Lexed ⟨type, tokText (c :: rest.takeWhile isWordChar), 0⟩ text := by
    intro type h₁ h₂
    have hno : (0 : UInt8) ∉ c :: rest.takeWhile isWordChar := fun hmem => hnul
      (((List.cons_prefix_cons.mpr ⟨rfl, List.takeWhile_prefix _⟩ :
        c :: rest.takeWhile isWordChar <+: c :: rest)).subset hmem)
    refine ⟨c :: rest.takeWhile isWordChar, ?_, ⟨fun _ => tokText_bytes hno, fun h => absurd h h₁,
      fun h => absurd h h₂⟩⟩
    rw [List.cons_append, List.takeWhile_append_dropWhile]
  unfold lexer_read
  rw [hpos]
  dsimp only
  split_ifs with hquote hdigit hword hnull hneq hlte hgte
  · -- a string, with its closing quote or without
    subst hquote
    have hbody : (0 : UInt8) ∉ rest.takeWhile (· != 39) := fun hmem =>
      hnul (List.mem_cons_of_mem _ ((List.takeWhile_prefix _).subset hmem))
    -- the string runs to the next quote, so there is none inside
    have hopen : (39 : UInt8) ∉ rest.takeWhile (· != 39) := fun hmem =>
      absurd (List.mem_takeWhile_imp hmem) (by decide)
    have hsplit := List.takeWhile_append_dropWhile (p := (· != 39)) (l := rest)
    cases hend : rest.dropWhile (· != 39) with
    | nil =>
      rw [hend, List.append_nil] at hsplit
      refine ⟨39 :: rest, (List.append_nil _).symm, ⟨by simp, by simp, fun _ => ?_⟩⟩
      exact ⟨rest.takeWhile (· != 39), hopen, Or.inr (by rw [hsplit]), tokText_bytes hbody⟩
    | cons d rem =>
      have hd : d = 39 := by
        have hfirst := List.head?_dropWhile_not (· != (39 : UInt8)) rest
        rw [hend] at hfirst
        simpa using hfirst
      subst hd
      rw [hend] at hsplit
      refine ⟨39 :: (rest.takeWhile (· != 39) ++ [39]), ?_, ⟨by simp, by simp, fun _ => ?_⟩⟩
      · rw [List.drop_one, List.tail_cons, List.cons_append, List.append_assoc]
        exact congrArg (39 :: ·) hsplit.symm
      · exact ⟨rest.takeWhile (· != 39), hopen, Or.inl rfl, tokText_bytes hbody⟩
  -- an integer: a digit or a sign, and the digits behind it
  · have hdigits : ∀ d ∈ rest.takeWhile isDigit, isDigit d = true := fun d hd =>
      List.mem_takeWhile_imp hd
    have hno : (0 : UInt8) ∉ c :: rest.takeWhile isDigit := fun hmem => hnul
      (((List.cons_prefix_cons.mpr ⟨rfl, List.takeWhile_prefix _⟩ :
        c :: rest.takeWhile isDigit <+: c :: rest)).subset hmem)
    refine ⟨c :: rest.takeWhile isDigit, ?_, ⟨by simp, fun _ => ⟨?_, c, _, rfl, ?_, hdigits⟩, by simp⟩⟩
    · rw [List.cons_append, List.takeWhile_append_dropWhile]
    · rw [tokText_bytes hno]
    · simp only [Bool.or_eq_true, Bool.and_eq_true, beq_iff_eq] at hdigit
      exact hdigit.imp_right And.left
  · exact hrun .null (by decide) (by decide)
  · exact hrun .ident (by decide) (by decide)
  · exact hpair .neq 33 hneq.2 (by decide) (by decide) (by decide)
  · exact hpair .lte 60 hlte.2 (by decide) (by decide) (by decide)
  · exact hpair .gte 62 hgte.2 (by decide) (by decide) (by decide)
  · obtain ⟨h₁, h₂, h₃⟩ := singleType_other c
    exact ⟨[c], rfl, .of_other h₁ h₂ h₃⟩

/-- The tokens of a text, and what each of them keeps. -/
theorem writtenTokens_lexed (pos : List UInt8) (hnul : (0 : UInt8) ∉ pos) :
    (writtenTokens pos).map Prod.fst = lexTokens pos ∧ ∀ w ∈ writtenTokens pos, Lexed w.1 w.2 := by
  induction pos using writtenTokens.induct with
  | case1 pos h =>
    rw [writtenTokens, lexTokens, dif_pos h, dif_pos h]
    exact ⟨rfl, by simp⟩
  | case2 pos h _ ih =>
    rw [writtenTokens, lexTokens, dif_neg h, dif_neg h]
    have hsuffix := lexer_skip_ws_suffix pos
    cases hpos : lexer_skip_ws pos with
    | nil =>
      have heof : (lexer_read pos).1.type = .eof := by
        unfold lexer_read
        rw [hpos]
        rfl
      exact absurd heof h
    | cons c rest =>
      have hstart : (0 : UInt8) ∉ c :: rest := fun hmem => hnul (hsuffix.subset (hpos ▸ hmem))
      obtain ⟨text, hsplit, hlexed⟩ := lexer_read_split hpos hstart
      have hwritten : written pos = text := written_eq (hpos.trans hsplit)
      have hrest : (0 : UInt8) ∉ (lexer_read pos).2 := fun hmem => by
        rw [hsplit] at hstart
        exact hstart (List.mem_append_right _ hmem)
      obtain ⟨htoks, hall⟩ := ih hrest
      refine ⟨congrArg _ htoks, fun w hw => ?_⟩
      rcases List.mem_cons.mp hw with rfl | hw
      · rw [hwritten]
        exact hlexed
      · exact hall w hw

end lexer

/-! ## Section 4: What fits is kept -/

section fits

variable {text : List UInt8} {tok : KdsToken} {name : CString} {val : KdsAstVal}

theorem take_eq_self_iff {n : Nat} {bs : List UInt8} : bs.take n = bs ↔ bs.length ≤ n := by
  refine ⟨fun h => ?_, List.take_of_length_le⟩
  have hlen := congrArg List.length h
  rw [List.length_take] at hlen
  omega

theorem Lexed.name_iff (h : Lexed tok text) (hname : IsName tok name) :
    text = name.bytes ↔ Fits tok.type text := by
  obtain ⟨htype, rfl⟩ := isName_iff.mp hname
  have hbytes : (strncpyTo KDS_PARSER_NAME_MAX tok.text).bytes = text.take (KDS_PARSER_NAME_MAX - 1) := by
    unfold strncpyTo
    rw [CString.ofBuffer_bytes fun hmem => tok.text.no_nul (List.mem_of_mem_take hmem), h.ident htype,
      List.take_take]
    rfl
  rw [htype, hbytes, eq_comm, take_eq_self_iff]
  unfold Fits
  simp only [KDS_PARSER_NAME_MAX]
  omega

/-- The wrapped value of the front of the digits is the value of all of them. -/
theorem wrap_front_iff (ds : List UInt8) (neg : Bool) (k : Nat) :
    wrap 64 (if neg then -(value (ds.take k) : Int) else value (ds.take k)) =
        (if neg then -(value ds : Int) else value ds) ↔
      (-2 ^ 63 ≤ (if neg then -(value ds : Int) else value ds) ∧
          (if neg then -(value ds : Int) else value ds) < 2 ^ 63) ∧
        (ds.length ≤ k ∨ value ds = 0) := by
  have hrange : ∀ v : Int, -2 ^ 63 ≤ v → v < 2 ^ 63 → wrap 64 v = v := fun v hlo hhi =>
    wrap_of_mem (by decide) hlo hhi
  have hmem := @wrap_mem 64 (by decide) (if neg then -(value (ds.take k) : Int) else value (ds.take k))
  by_cases hk : ds.length ≤ k
  · rw [List.take_of_length_le hk] at hmem ⊢
    constructor
    · intro h
      rw [h] at hmem
      exact ⟨hmem, Or.inl hk⟩
    · rintro ⟨⟨hlo, hhi⟩, -⟩
      exact hrange _ hlo hhi
  · -- the digits behind the front count for at least ten times the front
    have hsplit : value ds = value (ds.take k) * 10 ^ (ds.drop k).length + value (ds.drop k) := by
      rw [← value_append, List.take_append_drop]
    have hpow : 10 ≤ 10 ^ (ds.drop k).length := by
      have hpos : (ds.drop k).length ≠ 0 := by
        rw [List.length_drop]
        omega
      exact Nat.le_self_pow hpos 10
    have hten : value (ds.take k) * 10 ≤ value ds := by
      rw [hsplit]
      exact (Nat.mul_le_mul_left _ hpow).trans (Nat.le_add_right _ _)
    constructor
    · intro h
      rw [h] at hmem
      refine ⟨hmem, Or.inr ?_⟩
      by_contra hne
      cases neg with
      | true =>
        simp only [if_true] at h hmem
        rw [hrange _ (by omega) (by omega)] at h
        omega
      | false =>
        simp only [Bool.false_eq_true, if_false] at h hmem
        rw [hrange _ (by omega) (by omega)] at h
        omega
    -- zeros only: the front is zero as well
    · rintro ⟨-, hlen | hzero⟩
      · exact absurd hlen hk
      · have hfront : value (ds.take k) = 0 := by omega
        rw [hzero, hfront]
        cases neg <;> decide

theorem intVal_digits {ds : List UInt8} (hds : ∀ d ∈ ds, isDigit d = true) :
    literalVal 0 ds = wrap 64 (value ds) := by
  rw [literalVal_digits hds, accDigits_zero, List.takeWhile_eq_self_iff.mpr hds]

theorem Lexed.int_iff (h : Lexed tok text) (htype : tok.type = .int_lit) :
    tok.int_val = literalValue text ↔ Fits .int_lit text := by
  obtain ⟨hval, c, ds, rfl, hc, hds⟩ := h.int_lit htype
  rw [hval]
  by_cases hminus : c = 45
  · subst hminus
    -- behind a sign the token keeps 254 digits, without one 255
    have hfront : intVal ((45 :: ds).take (KDS_PARSER_VAL_MAX - 1)) =
        wrap 64 (-(value (ds.take 254) : Int)) := by
      have hdigits : ∀ d ∈ ds.take 254, isDigit d = true := fun d hd => hds d (List.mem_of_mem_take hd)
      change wrap 64 (-literalVal 0 (ds.take 254)) = _
      rw [intVal_digits hdigits]
      exact Int.bmod_neg_bmod
    have hiff := wrap_front_iff ds true 254
    simp only [if_true] at hiff
    rw [hfront]
    change wrap 64 _ = -(value ds : Int) ↔ (-2 ^ 63 ≤ -(value ds : Int) ∧ -(value ds : Int) < 2 ^ 63) ∧
      ((45 :: ds).length < 256 ∨ -(value ds : Int) = 0)
    rw [hiff, List.length_cons]
    omega
  · have hall : ∀ d ∈ c :: ds, isDigit d = true := by
      intro d hd
      rcases List.mem_cons.mp hd with rfl | hd
      · exact hc.resolve_right hminus
      · exact hds d hd
    have hfront : intVal ((c :: ds).take (KDS_PARSER_VAL_MAX - 1)) =
        wrap 64 (value ((c :: ds).take 255)) := by
      have hdigits : ∀ d ∈ (c :: ds).take 255, isDigit d = true := fun d hd =>
        hall d (List.mem_of_mem_take hd)
      rw [← intVal_digits hdigits, List.take_succ_cons]
      unfold intVal
      split
      · rename_i heq
        exact absurd (List.cons.inj heq).1 hminus
      · rfl
    have hvalue : literalValue (c :: ds) = (value (c :: ds) : Int) := by
      unfold literalValue
      split
      · rename_i heq
        exact absurd (List.cons.inj heq).1 hminus
      · rfl
    have hiff := wrap_front_iff (c :: ds) false 255
    simp only [Bool.false_eq_true, if_false] at hiff
    unfold Fits
    rw [hfront, hvalue, hiff]
    simp only [KDS_PARSER_VAL_MAX]
    omega

theorem Lexed.str_iff (h : Lexed tok text) (htype : tok.type = .str_lit) :
    text = 39 :: ((strncpyTo KDS_PARSER_VAL_MAX tok.text).bytes ++ [39]) ↔ Fits .str_lit text := by
  obtain ⟨body, hopen, hshape, hkept⟩ := h.str_lit htype
  have hbytes : (strncpyTo KDS_PARSER_VAL_MAX tok.text).bytes = body.take (KDS_PARSER_VAL_MAX - 1) := by
    unfold strncpyTo
    rw [CString.ofBuffer_bytes fun hmem => tok.text.no_nul (List.mem_of_mem_take hmem), hkept,
      List.take_take, Nat.min_self]
  rw [hbytes]
  constructor
  · intro htext
    rcases hshape with rfl | rfl
    · have hbody := List.append_cancel_right (List.cons.inj htext).2
      refine ⟨body, rfl, hopen, ?_⟩
      have hle := take_eq_self_iff.mp hbody.symm
      simp only [KDS_PARSER_VAL_MAX] at hle ⊢
      omega
    · have hbody := (List.cons.inj htext).2
      refine absurd ?_ hopen
      rw [hbody]
      exact List.mem_append_right _ (List.mem_singleton_self 39)
  · rintro ⟨body', htext, hopen', hlen⟩
    rcases hshape with rfl | rfl
    · have hbody := List.append_cancel_right (List.cons.inj htext).2
      subst hbody
      rw [take_eq_self_iff.mpr (by omega)]
    · have hbody := (List.cons.inj htext).2
      refine absurd ?_ hopen
      rw [hbody]
      exact List.mem_append_right _ (List.mem_singleton_self 39)

theorem Lexed.value_iff (h : Lexed tok text) (hval : IsValue tok val) :
    ValueWritten text val ↔ Fits tok.type text := by
  cases hval with
  | int htype =>
    rw [htype]
    exact h.int_iff htype
  | str htype =>
    rw [htype]
    exact h.str_iff htype
  | null htype =>
    rw [htype]
    exact iff_of_true trivial trivial

/-- A keyword is short. -/
theorem Lexed.keyword {keyword : CString} (h : Lexed tok text) (hkey : isKeyword keyword tok)
    (hlen : keyword.bytes.length < KDS_PARSER_NAME_MAX) : Fits tok.type text := by
  obtain ⟨htype, hcase⟩ := hkey
  have hspell := congrArg List.length (strcaseEq_iff.mp hcase)
  rw [h.ident htype, List.length_map, List.length_map, List.length_take] at hspell
  rw [htype]
  unfold Fits
  simp only [KDS_PARSER_NAME_MAX, KDS_PARSER_VAL_MAX] at hlen hspell ⊢
  omega

/-- The name of a type is short. -/
theorem Lexed.type_name {desc : KdsTypeDesc} (h : Lexed tok text) (htype : tok.type = .ident)
    (hdesc : kds_type_lookup_by_name tok.text = some desc) : Fits tok.type text := by
  have hshort : ∀ desc ∈ kds_type_table, desc.name.length ≤ 7 := by decide
  have hle := hshort desc (List.mem_of_find?_eq_some hdesc)
  have hname : desc.name = tok.text.bytes := by simpa using List.find?_some hdesc
  rw [hname, h.ident htype, List.length_take] at hle
  rw [htype]
  unfold Fits
  simp only [KDS_PARSER_NAME_MAX, KDS_PARSER_VAL_MAX] at hle ⊢
  omega

end fits

/-! ## Section 5: Statements -/

/-- Every token of the text fits. -/
def AllFit (ws : List (KdsToken × List UInt8)) : Prop := ∀ w ∈ ws, Fits w.1.type w.2

/-- Tokens with their texts. -/
def AllLexed (ws : List (KdsToken × List UInt8)) : Prop := ∀ w ∈ ws, Lexed w.1 w.2

section stmts

variable {ws : List (KdsToken × List UInt8)} {w : KdsToken × List UInt8} {toks : List KdsToken}

theorem allFit_nil : AllFit [] := fun _ h => absurd h List.not_mem_nil

theorem allFit_cons : AllFit (w :: ws) ↔ Fits w.1.type w.2 ∧ AllFit ws := List.forall_mem_cons

theorem allFit_append {ws' : List (KdsToken × List UInt8)} :
    AllFit (ws ++ ws') ↔ AllFit ws ∧ AllFit ws' := List.forall_mem_append

theorem AllLexed.cons (h : AllLexed (w :: ws)) : Lexed w.1 w.2 ∧ AllLexed ws :=
  List.forall_mem_cons.mp h

theorem AllLexed.append {ws' : List (KdsToken × List UInt8)} (h : AllLexed (ws ++ ws')) :
    AllLexed ws ∧ AllLexed ws' := List.forall_mem_append.mp h

/-- A phrase of `m` tokens is written as it is read just if it fits. -/
def PhraseKept {α : Type} (D : List KdsToken → α → Prop) (W : List (List UInt8) → α → Prop) (m : Nat) :
    Prop :=
  ∀ ws a, AllLexed ws → D (ws.map Prod.fst) a → ws.length = m ∧ (W (ws.map Prod.snd) a ↔ AllFit ws)

/-- **A list** of phrases, whatever stands behind it. -/
theorem items_written_iff {α : Type} {sep : KdsToken → Prop} {D : List KdsToken → α → Prop}
    {W : List (List UInt8) → α → Prop} {m : Nat} {as : List α} (hD : PhraseKept D W m)
    (hsep : ∀ w : KdsToken × List UInt8, sep w.1 → Lexed w.1 w.2 → Fits w.1.type w.2)
    (h : SepList sep D toks as) : ∀ {ws : List (KdsToken × List UInt8)} (rest : List (List UInt8)),
    ws.map Prod.fst = toks → AllLexed ws →
      (ItemsWritten W m (ws.map Prod.snd ++ rest) as ↔ AllFit ws) := by
  induction h with
  | one hone =>
    intro ws rest htoks hlex
    subst htoks
    obtain ⟨hlen, hiff⟩ := hD ws _ hlex hone
    have htake : (ws.map Prod.snd ++ rest).take m = ws.map Prod.snd :=
      List.take_left' (by rw [List.length_map, hlen])
    rw [ItemsWritten, ItemsWritten, htake, and_true]
    exact hiff
  | cons hone hs _ ih =>
    intro ws rest htoks hlex
    obtain ⟨ws₁, ws', rfl, rfl, htoks₁⟩ := List.map_eq_append_iff.mp htoks
    obtain ⟨w, ws₂, rfl, rfl, htoks₂⟩ := List.map_eq_cons_iff.mp htoks₁
    obtain ⟨hlex₁, hlex'⟩ := hlex.append
    obtain ⟨hw, hlex₂⟩ := hlex'.cons
    obtain ⟨hlen, hiff⟩ := hD ws₁ _ hlex₁ hone
    have hsize : (ws₁.map Prod.snd).length = m := by rw [List.length_map, hlen]
    have hshape : (ws₁ ++ w :: ws₂).map Prod.snd ++ rest =
        ws₁.map Prod.snd ++ w.2 :: (ws₂.map Prod.snd ++ rest) := by simp
    have htake : (ws₁.map Prod.snd ++ w.2 :: (ws₂.map Prod.snd ++ rest)).take m = ws₁.map Prod.snd :=
      List.take_left' hsize
    have hdrop : (ws₁.map Prod.snd ++ w.2 :: (ws₂.map Prod.snd ++ rest)).drop (m + 1) =
        ws₂.map Prod.snd ++ rest := by
      rw [← List.drop_drop, List.drop_left' hsize, List.drop_one, List.tail_cons]
    rw [hshape, ItemsWritten, htake, hdrop, ih rest htoks₂ hlex₂, hiff, allFit_append, allFit_cons]
    exact and_congr_right fun _ => (and_iff_right (hsep w hs hw)).symm

theorem column_kept : PhraseKept Column ColumnWritten 2 := by
  intro ws col hlex hcol
  generalize htoks : ws.map Prod.fst = toks at hcol
  cases hcol with
  | mk hname htype hdesc =>
    obtain ⟨w, ws, rfl, rfl, htoks₁⟩ := List.map_eq_cons_iff.mp htoks
    obtain ⟨w', ws, rfl, rfl, htoks₂⟩ := List.map_eq_cons_iff.mp htoks₁
    obtain rfl := List.map_eq_nil_iff.mp htoks₂
    obtain ⟨hw, hlex⟩ := hlex.cons
    have hfits := hlex.cons.1.type_name htype hdesc
    refine ⟨rfl, ?_⟩
    rw [allFit_cons, allFit_cons, and_iff_left ⟨hfits, allFit_nil⟩, ← hw.name_iff hname]
    exact Option.some_inj

theorem value_kept : PhraseKept (One IsValue) ItemWritten 1 := by
  rintro ws val hlex ⟨tok, htoks, hval⟩
  obtain ⟨w, ws, rfl, rfl, htoks₁⟩ := List.map_eq_cons_iff.mp htoks
  obtain rfl := List.map_eq_nil_iff.mp htoks₁
  refine ⟨rfl, ?_⟩
  rw [allFit_cons, and_iff_left allFit_nil, ← hlex.cons.1.value_iff hval]
  exact ⟨fun ⟨text, htext, hw⟩ => Option.some.inj htext ▸ hw, fun hw => ⟨_, rfl, hw⟩⟩

/-- An operator has nothing to keep. -/
theorem fits_cond_op (op : KdsCondOp) (text : List UInt8) : Fits op.tokenType text := by
  cases op <;> exact trivial

theorem cond_kept : PhraseKept Cond CondWritten 3 := by
  intro ws cond hlex hcond
  generalize htoks : ws.map Prod.fst = toks at hcond
  cases hcond with
  | mk hname hop hval =>
    obtain ⟨w, ws, rfl, rfl, htoks₁⟩ := List.map_eq_cons_iff.mp htoks
    obtain ⟨w', ws, rfl, rfl, htoks₂⟩ := List.map_eq_cons_iff.mp htoks₁
    obtain ⟨w'', ws, rfl, rfl, htoks₃⟩ := List.map_eq_cons_iff.mp htoks₂
    obtain rfl := List.map_eq_nil_iff.mp htoks₃
    obtain ⟨hw, hlex⟩ := hlex.cons
    have hw'' := hlex.cons.2.cons.1
    have hfits : Fits w'.1.type w'.2 := hop ▸ fits_cond_op _ _
    refine ⟨rfl, ?_⟩
    rw [allFit_cons, allFit_cons, allFit_cons, and_iff_right hfits, and_iff_left allFit_nil,
      ← hw.name_iff hname, ← hw''.value_iff hval]
    refine and_congr Option.some_inj ?_
    exact ⟨fun ⟨text, htext, h⟩ => Option.some.inj htext ▸ h, fun h => ⟨_, rfl, h⟩⟩

/-- A token of a type that keeps nothing. -/
theorem fits_of_type {type : KdsTokenType} (h : w.1.type = type) (htype : type ≠ .ident)
    (htype' : type ≠ .int_lit) (htype'' : type ≠ .str_lit) : Fits w.1.type w.2 := by
  rw [h]
  cases type <;> first | exact trivial | contradiction

theorem Semicolon.allFit (h : Semicolon toks) (htoks : ws.map Prod.fst = toks) : AllFit ws := by
  cases h with
  | none =>
    obtain rfl := List.map_eq_nil_iff.mp htoks
    exact allFit_nil
  | some hsemi =>
    obtain ⟨w, ws, rfl, rfl, htoks₁⟩ := List.map_eq_cons_iff.mp htoks
    obtain rfl := List.map_eq_nil_iff.mp htoks₁
    exact allFit_cons.mpr ⟨fits_of_type hsemi (by decide) (by decide) (by decide), allFit_nil⟩

theorem Storage.allFit {clustered : ClusteredType} (h : Storage toks clustered)
    (htoks : ws.map Prod.fst = toks) (hlex : AllLexed ws) : AllFit ws := by
  cases h with
  | none =>
    obtain rfl := List.map_eq_nil_iff.mp htoks
    exact allFit_nil
  | heap hkey =>
    obtain ⟨w, ws, rfl, rfl, htoks₁⟩ := List.map_eq_cons_iff.mp htoks
    obtain rfl := List.map_eq_nil_iff.mp htoks₁
    exact allFit_cons.mpr ⟨hlex.cons.1.keyword hkey (by decide), allFit_nil⟩
  | btree hkey =>
    obtain ⟨w, ws, rfl, rfl, htoks₁⟩ := List.map_eq_cons_iff.mp htoks
    obtain rfl := List.map_eq_nil_iff.mp htoks₁
    exact allFit_cons.mpr ⟨hlex.cons.1.keyword hkey (by decide), allFit_nil⟩

theorem Where.written_iff {clause : Bool × List KdsAstCond} (h : Where toks clause)
    (rest : List (List UInt8)) (htoks : ws.map Prod.fst = toks) (hlex : AllLexed ws) :
    ItemsWritten CondWritten 3 ((ws.map Prod.snd ++ rest).drop 1) clause.2 ↔ AllFit ws := by
  cases h with
  | none =>
    obtain rfl := List.map_eq_nil_iff.mp htoks
    exact iff_of_true trivial allFit_nil
  | conds hkey hconds _ =>
    obtain ⟨w, ws, rfl, rfl, htoks₁⟩ := List.map_eq_cons_iff.mp htoks
    obtain ⟨hw, hlex⟩ := hlex.cons
    rw [allFit_cons, and_iff_right (hw.keyword hkey (by decide))]
    exact items_written_iff cond_kept (fun w hw hl => hl.keyword hw (by decide)) hconds rest htoks₁
      hlex

/-- **A statement** is what its text says just if all of the text fits. -/
theorem statement_written_iff {stmt : KdsStmt} (h : Statement toks stmt)
    (htoks : ws.map Prod.fst = toks) (hlex : AllLexed ws) :
    AsWritten (ws.map Prod.snd) stmt ↔ AllFit ws := by
  -- `ws` splits as the tokens do; only names and the items of lists can fail to fit
  cases h with
  | create_table hcreate hstmt =>
    cases hstmt with
    | mk htable hname hlparen hcols _ hrparen hstorage hsemi =>
      obtain ⟨w₀, ws, rfl, rfl, htoks₁⟩ := List.map_eq_cons_iff.mp htoks
      obtain ⟨w₁, ws, rfl, rfl, htoks₂⟩ := List.map_eq_cons_iff.mp htoks₁
      obtain ⟨w₂, ws, rfl, rfl, htoks₃⟩ := List.map_eq_cons_iff.mp htoks₂
      obtain ⟨w₃, ws, rfl, rfl, htoks₄⟩ := List.map_eq_cons_iff.mp htoks₃
      obtain ⟨items, ws, rfl, hitems, htoks₅⟩ := List.map_eq_append_iff.mp htoks₄
      obtain ⟨w₄, ws, rfl, rfl, htoks₆⟩ := List.map_eq_cons_iff.mp htoks₅
      obtain ⟨storage, semi, rfl, hst, hse⟩ := List.map_eq_append_iff.mp htoks₆
      obtain ⟨h₀, hlex⟩ := hlex.cons
      obtain ⟨h₁, hlex⟩ := hlex.cons
      obtain ⟨h₂, hlex⟩ := hlex.cons
      obtain ⟨hitemlex, hlex⟩ := hlex.cons.2.append
      have hlist := items_written_iff column_kept
        (fun w hw _ => fits_of_type hw (by decide) (by decide) (by decide)) hcols
        (w₄.2 :: (storage ++ semi).map Prod.snd) hitems hitemlex
      -- what follows the columns is keywords and punctuation
      have hrest : AllFit (w₄ :: (storage ++ semi)) := allFit_cons.mpr
        ⟨fits_of_type hrparen (by decide) (by decide) (by decide),
          allFit_append.mpr ⟨hstorage.allFit hst hlex.cons.2.append.1, hsemi.allFit hse⟩⟩
      simp only [AsWritten, NameWritten, List.map_cons, List.map_append, List.getElem?_cons_succ,
        List.getElem?_cons_zero, List.drop_succ_cons, List.drop_zero, Option.some_inj] at hlist ⊢
      rw [hlist, h₂.name_iff hname, allFit_cons, allFit_cons, allFit_cons, allFit_cons, allFit_append,
        and_iff_right (h₀.keyword hcreate (by decide)), and_iff_right (h₁.keyword htable (by decide)),
        and_iff_right (fits_of_type hlparen (by decide) (by decide) (by decide)), and_iff_left hrest]
  | insert hinsert hstmt =>
    cases hstmt with
    | mk hinto hname hvalues hlparen hvals _ hrparen hsemi =>
      obtain ⟨w₀, ws, rfl, rfl, htoks₁⟩ := List.map_eq_cons_iff.mp htoks
      obtain ⟨w₁, ws, rfl, rfl, htoks₂⟩ := List.map_eq_cons_iff.mp htoks₁
      obtain ⟨w₂, ws, rfl, rfl, htoks₃⟩ := List.map_eq_cons_iff.mp htoks₂
      obtain ⟨w₃, ws, rfl, rfl, htoks₄⟩ := List.map_eq_cons_iff.mp htoks₃
      obtain ⟨w₄, ws, rfl, rfl, htoks₅⟩ := List.map_eq_cons_iff.mp htoks₄
      obtain ⟨items, ws, rfl, hitems, htoks₆⟩ := List.map_eq_append_iff.mp htoks₅
      obtain ⟨w₅, semi, rfl, rfl, hse⟩ := List.map_eq_cons_iff.mp htoks₆
      obtain ⟨h₀, hlex⟩ := hlex.cons
      obtain ⟨h₁, hlex⟩ := hlex.cons
      obtain ⟨h₂, hlex⟩ := hlex.cons
      obtain ⟨h₃, hlex⟩ := hlex.cons
      obtain ⟨hitemlex, -⟩ := hlex.cons.2.append
      have hlist := items_written_iff value_kept
        (fun w hw _ => fits_of_type hw (by decide) (by decide) (by decide)) hvals
        (w₅.2 :: semi.map Prod.snd) hitems hitemlex
      have hrest : AllFit (w₅ :: semi) := allFit_cons.mpr
        ⟨fits_of_type hrparen (by decide) (by decide) (by decide), hsemi.allFit hse⟩
      simp only [AsWritten, NameWritten, List.map_cons, List.map_append, List.getElem?_cons_succ,
        List.getElem?_cons_zero, List.drop_succ_cons, List.drop_zero, Option.some_inj] at hlist ⊢
      rw [hlist, h₂.name_iff hname, allFit_cons, allFit_cons, allFit_cons, allFit_cons, allFit_cons,
        allFit_append, and_iff_right (h₀.keyword hinsert (by decide)),
        and_iff_right (h₁.keyword hinto (by decide)), and_iff_right (h₃.keyword hvalues (by decide)),
        and_iff_right (fits_of_type hlparen (by decide) (by decide) (by decide)), and_iff_left hrest]
  | select hselect hstmt =>
    cases hstmt with
    | mk hstar hfrom hname hwhere hsemi =>
      obtain ⟨w₀, ws, rfl, rfl, htoks₁⟩ := List.map_eq_cons_iff.mp htoks
      obtain ⟨w₁, ws, rfl, rfl, htoks₂⟩ := List.map_eq_cons_iff.mp htoks₁
      obtain ⟨w₂, ws, rfl, rfl, htoks₃⟩ := List.map_eq_cons_iff.mp htoks₂
      obtain ⟨w₃, ws, rfl, rfl, htoks₄⟩ := List.map_eq_cons_iff.mp htoks₃
      obtain ⟨items, semi, rfl, hitems, hse⟩ := List.map_eq_append_iff.mp htoks₄
      obtain ⟨h₀, hlex⟩ := hlex.cons
      obtain ⟨h₂, hlex⟩ := hlex.cons.2.cons
      obtain ⟨h₃, hlex⟩ := hlex.cons
      obtain ⟨hitemlex, -⟩ := hlex.append
      have hclause := hwhere.written_iff (semi.map Prod.snd) hitems hitemlex
      simp only [AsWritten, NameWritten, List.map_cons, List.map_append, List.getElem?_cons_succ,
        List.getElem?_cons_zero, List.drop_succ_cons, Option.some_inj] at hclause ⊢
      rw [hclause, h₃.name_iff hname, allFit_cons, allFit_cons, allFit_cons, allFit_cons, allFit_append,
        and_iff_right (h₀.keyword hselect (by decide)), and_iff_right (h₂.keyword hfrom (by decide)),
        and_iff_right (fits_of_type hstar (by decide) (by decide) (by decide)),
        and_iff_left (hsemi.allFit hse)]
  | show_ hshow hstmt =>
    obtain ⟨w₀, ws, rfl, rfl, htoks₁⟩ := List.map_eq_cons_iff.mp htoks
    obtain ⟨h₀, hlex⟩ := hlex.cons
    have hrest : AllFit ws := by
      cases hstmt with
      | meta_ hkey hsemi =>
        obtain ⟨w₁, ws, rfl, rfl, htoks₂⟩ := List.map_eq_cons_iff.mp htoks₁
        exact allFit_cons.mpr ⟨hlex.cons.1.keyword hkey (by decide), hsemi.allFit htoks₂⟩
      | alloc hkey hsemi =>
        obtain ⟨w₁, ws, rfl, rfl, htoks₂⟩ := List.map_eq_cons_iff.mp htoks₁
        exact allFit_cons.mpr ⟨hlex.cons.1.keyword hkey (by decide), hsemi.allFit htoks₂⟩
    have hall := allFit_cons.mpr ⟨h₀.keyword hshow (by decide), hrest⟩
    cases hstmt with
    | meta_ => exact iff_of_true trivial hall
    | alloc => exact iff_of_true trivial hall

end stmts

/-! ## Section 6: The parser -/

/-- The law for a text: what is accepted is what is written, and what does not
    fit is `-EINVAL`. -/
def LiteralsKept (sql : CString) : Prop :=
  ∀ err_buf_size,
    (∀ stmt, (kds_parse sql err_buf_size).1 = .ok stmt →
      AsWritten ((writtenTokens sql.bytes).map Prod.snd) stmt) ∧
    (¬ AllFit (writtenTokens sql.bytes) → (kds_parse sql err_buf_size).1 = .error .EINVAL)

/-- The grammar turns the text away, or every name, string and integer in it is in its limit. -/
def Unclipped (sql : CString) : Prop :=
  (∀ stmt, ¬ Statement (lexTokens sql.bytes) stmt) ∨ AllFit (writtenTokens sql.bytes)

/-- **Literals and names** are kept just where none of them is over its limit. -/
theorem kds_parse_literals_iff (sql : CString) : LiteralsKept sql ↔ Unclipped sql := by
  obtain ⟨htoks, hlex⟩ := writtenTokens_lexed sql.bytes sql.no_nul
  constructor
  · intro hkept
    by_cases hfit : AllFit (writtenTokens sql.bytes)
    · exact Or.inr hfit
    · exact Or.inl ((kds_parse_accepts sql 0).2.mp ((hkept 0).2 hfit))
  · intro hcond err_buf_size
    obtain ⟨hok, herr⟩ := kds_parse_accepts sql err_buf_size
    refine ⟨fun stmt hparse => ?_, fun hclip => herr.mpr (hcond.resolve_right hclip)⟩
    have hstmt := (hok stmt).mp hparse
    have hfit := hcond.resolve_left fun hnone => hnone stmt hstmt
    exact (statement_written_iff hstmt htoks hlex).mpr hfit

/-- A bound that is just above the largest `s64`. -/
def overText : CString := ⟨ascii "SELECT * FROM ledger WHERE amount < 9223372036854775808", by decide⟩

def overStmt : KdsStmt :=
  .select ⟨⟨ascii "ledger", by decide⟩, true,
    [⟨⟨ascii "amount", by decide⟩, .lt, .int (-9223372036854775808)⟩]⟩

/-- The bound is read as the least `s64`, and nothing is reported. -/
theorem kds_parse_wraps_literal :
    (kds_parse overText 0).1 = .ok overStmt ∧ ¬ LiteralsKept overText := by
  have hstmt : (kds_parse overText 0).1 = .ok overStmt := by decide +kernel
  refine ⟨hstmt, fun hkept => ?_⟩
  obtain ⟨-, ⟨-, text, htext, hval⟩, -⟩ := (hkept 0).1 _ hstmt
  have hbound : ((((writtenTokens overText.bytes).map Prod.snd).drop 5).take 3)[2]? =
      some (ascii "9223372036854775808") := by decide +kernel
  obtain rfl := Option.some.inj (hbound.symm.trans htext)
  have hwrong : (-9223372036854775808 : Int) = literalValue (ascii "9223372036854775808") := hval
  exact absurd hwrong (by decide +kernel)

end Kds
