import Kds.Sql.Print

/-! # Letter case

    The text of a statement with its letters in lower case, but for strings
    and comments. The lexer reads the same tokens from it up to the case of
    their texts, and the grammar does not look at the case of a token, except
    where it looks for the name of a type.
-/

open Bytes Decimal Recognise

namespace Kds

/-! ## Section 1: Characters -/

section characters

variable {c d : UInt8}

theorem isalpha_tolower (c : UInt8) : isalpha (tolower c) = isalpha c := by
  revert c
  exact forall_char (by decide +kernel)

theorem tolower_of_not_alpha (h : isalpha c = false) : tolower c = c := by
  unfold isalpha at h
  unfold tolower
  rw [if_neg (by simp_all)]

/-- Only a letter becomes a letter. -/
theorem tolower_eq_iff (hd : isalpha d = false) : tolower c = d ↔ c = d := by
  constructor
  · rintro rfl
    rw [isalpha_tolower] at hd
    exact (tolower_of_not_alpha hd).symm
  · rintro rfl
    exact tolower_of_not_alpha hd

theorem tolower_bne (hd : isalpha d = false) : (tolower c != d) = (c != d) := by
  rw [Bool.eq_iff_iff, bne_iff_ne, bne_iff_ne, ne_eq, tolower_eq_iff hd]

theorem isspace_tolower (c : UInt8) : isspace (tolower c) = isspace c := by
  revert c
  exact forall_char (by decide +kernel)

theorem isDigit_tolower (c : UInt8) : isDigit (tolower c) = isDigit c := by
  revert c
  exact forall_char (by decide +kernel)

theorem isWordStart_tolower (c : UInt8) : isWordStart (tolower c) = isWordStart c := by
  unfold isWordStart
  rw [isalpha_tolower, Bool.eq_iff_iff]
  simp [tolower_eq_iff (c := c) (d := 95) (by decide)]

theorem isWordChar_tolower (c : UInt8) : isWordChar (tolower c) = isWordChar c := by
  unfold isWordChar isalnum
  rw [isalpha_tolower, isDigit_tolower, Bool.eq_iff_iff]
  simp [tolower_eq_iff (c := c) (d := 95) (by decide)]

theorem isDigit_not_alpha (c : UInt8) : isDigit c = true → isalpha c = false := by
  revert c
  exact forall_char (by decide +kernel)

theorem tolower_tolower (c : UInt8) : tolower (tolower c) = tolower c := by
  revert c
  exact forall_char (by decide +kernel)

end characters

/-! ## Section 2: Texts -/

/-- Where in a text a character stands. -/
inductive Zone where
  | code
  | string
  | comment

/-- The text with the letters of its code in lower case. -/
def lowerCode : Zone → List UInt8 → List UInt8
  | _, [] => []
  | .code, 39 :: cs => 39 :: lowerCode .string cs
  | .code, 45 :: 45 :: cs => 45 :: 45 :: lowerCode .comment cs
  | .code, c :: cs => tolower c :: lowerCode .code cs
  | .string, c :: cs => c :: lowerCode (if c = 39 then .code else .string) cs
  | .comment, c :: cs => c :: lowerCode (if c = 10 then .code else .comment) cs

/-- The texts differ at most in the case of letters outside strings and comments. -/
def Recased (sql sql' : CString) : Prop := lowerCode .code sql.bytes = lowerCode .code sql'.bytes

instance : DecidableRel Recased := fun sql sql' =>
  inferInstanceAs (Decidable (lowerCode .code sql.bytes = lowerCode .code sql'.bytes))

section texts

variable {c : UInt8} {cs : List UInt8}

theorem lowerCode_cons (hquote : c ≠ 39) (hdash : ¬ (c = 45 ∧ cs.headD 0 = 45)) :
    lowerCode .code (c :: cs) = tolower c :: lowerCode .code cs := by
  rw [lowerCode]
  · exact hquote
  · rintro rest rfl rfl
    exact hdash ⟨rfl, rfl⟩

/-- The first character does not depend on what it starts. -/
theorem lowerCode_first (c : UInt8) (cs : List UInt8) :
    ∃ ds, lowerCode .code (c :: cs) = tolower c :: ds := by
  by_cases hquote : c = 39
  · subst hquote
    exact ⟨_, rfl⟩
  · by_cases hdash : c = 45 ∧ cs.headD 0 = 45
    · obtain ⟨rfl, hhead⟩ := hdash
      cases cs with
      | nil => exact absurd hhead (by decide)
      | cons d cs =>
        obtain rfl : d = 45 := hhead
        exact ⟨_, rfl⟩
    · exact ⟨_, lowerCode_cons hquote hdash⟩

theorem lowerCode_headD (cs : List UInt8) : (lowerCode .code cs).headD 0 = tolower (cs.headD 0) := by
  cases cs with
  | nil => rfl
  | cons c cs =>
    obtain ⟨ds, hds⟩ := lowerCode_first c cs
    rw [hds]
    rfl

/-- A run of characters that are no quotes and no dashes. -/
theorem lowerCode_run {p : UInt8 → Bool} (hp : ∀ c, p (tolower c) = p c)
    (hother : ∀ c, p c = true → c ≠ 39 ∧ c ≠ 45) (cs : List UInt8) :
    (lowerCode .code cs).takeWhile p = (cs.takeWhile p).map tolower ∧
      (lowerCode .code cs).dropWhile p = lowerCode .code (cs.dropWhile p) := by
  induction cs with
  | nil => exact ⟨rfl, rfl⟩
  | cons c cs ih =>
    by_cases hc : p c = true
    · obtain ⟨hquote, hdash⟩ := hother c hc
      have hlow : p (tolower c) = true := (hp c).trans hc
      rw [lowerCode_cons hquote fun h => hdash h.1, List.takeWhile_cons_of_pos hlow,
        List.takeWhile_cons_of_pos hc, List.dropWhile_cons_of_pos hlow, List.dropWhile_cons_of_pos hc]
      exact ⟨congrArg _ ih.1, ih.2⟩
    · have hlow : ¬ p (tolower c) = true := by rwa [hp c]
      obtain ⟨ds, hds⟩ := lowerCode_first c cs
      rw [List.takeWhile_cons_of_neg hc, List.dropWhile_cons_of_neg hc, hds,
        List.takeWhile_cons_of_neg hlow, List.dropWhile_cons_of_neg hlow]
      exact ⟨rfl, rfl⟩

/-- A string or a comment is left as it is, up to the character that ends it. -/
theorem lowerCode_string (cs : List UInt8) :
    (lowerCode .string cs).takeWhile (· != 39) = cs.takeWhile (· != 39) ∧
      ((lowerCode .string cs).dropWhile (· != 39)).drop 1 =
        lowerCode .code ((cs.dropWhile (· != 39)).drop 1) := by
  induction cs with
  | nil => exact ⟨rfl, rfl⟩
  | cons c cs ih =>
    by_cases hc : c = 39
    · subst hc
      exact ⟨rfl, rfl⟩
    · have hne : (c != 39) = true := by simpa using hc
      rw [lowerCode, if_neg hc]
      simp only [List.takeWhile_cons, List.dropWhile_cons, hne, if_true]
      exact ⟨congrArg _ ih.1, ih.2⟩

theorem lowerCode_comment (cs : List UInt8) :
    (lowerCode .comment cs).dropWhile (· != 10) = lowerCode .code (cs.dropWhile (· != 10)) := by
  induction cs with
  | nil => rfl
  | cons c cs ih =>
    by_cases hc : c = 10
    · subst hc
      rfl
    · have hne : (c != 10) = true := by simpa using hc
      rw [lowerCode, if_neg hc]
      simp only [List.dropWhile_cons, hne, if_true]
      exact ih

/-- What is left starts no comment. -/
theorem lexer_skip_ws_code (pos : List UInt8) (rest : List UInt8) :
    lexer_skip_ws pos ≠ 45 :: 45 :: rest := by
  induction pos using lexer_skip_ws.induct with
  | case1 pos _ h _ ih =>
    rw [lexer_skip_ws_comment h]
    exact ih
  | case2 pos hno =>
    rw [lexer_skip_ws_stop hno]
    exact hno rest

theorem lowerCode_skip_ws (pos : List UInt8) :
    lexer_skip_ws (lowerCode .code pos) = lowerCode .code (lexer_skip_ws pos) := by
  have hspaces : ∀ pos, (lowerCode .code pos).dropWhile isspace =
      lowerCode .code (pos.dropWhile isspace) := by
    have hother : ∀ c, isspace c = true → c ≠ 39 ∧ c ≠ 45 := forall_char (by decide +kernel)
    exact fun pos => (lowerCode_run isspace_tolower hother pos).2
  induction pos using lexer_skip_ws.induct with
  | case1 pos rest h _ ih =>
    have hlow : (lowerCode .code pos).dropWhile isspace = 45 :: 45 :: lowerCode .comment rest := by
      rw [hspaces, h]
      rfl
    rw [lexer_skip_ws_comment h, lexer_skip_ws_comment hlow, lowerCode_comment]
    exact ih
  | case2 pos hno =>
    rw [lexer_skip_ws_stop hno, lexer_skip_ws_stop, hspaces]
    intro rest h
    rw [hspaces] at h
    -- only two dashes become two dashes
    cases hpos : pos.dropWhile isspace with
    | nil =>
      rw [hpos] at h
      cases h
    | cons c cs =>
      rw [hpos] at h hno
      by_cases hdash : c = 45 ∧ cs.headD 0 = 45
      · obtain ⟨rfl, hhead⟩ := hdash
        cases cs with
        | nil => exact absurd hhead (by decide)
        | cons d cs =>
          obtain rfl : d = 45 := hhead
          exact hno cs rfl
      · obtain ⟨ds, hds⟩ := lowerCode_first c cs
        rw [hds] at h
        obtain rfl : c = 45 := (tolower_eq_iff (by decide)).mp (List.cons.inj h).1
        rw [lowerCode_cons (by decide) hdash] at hds
        have hhead := lowerCode_headD cs
        rw [(List.cons.inj hds).2, (List.cons.inj h).2] at hhead
        exact hdash ⟨rfl, (tolower_eq_iff (by decide)).mp hhead.symm⟩

end texts

/-! ## Section 3: Tokens -/

def lowerText (s : CString) : CString where
  bytes := s.bytes.map tolower
  no_nul := by
    intro h
    obtain ⟨c, hc, hzero⟩ := List.mem_map.mp h
    obtain rfl := (tolower_eq_iff (by decide)).mp hzero
    exact s.no_nul hc

/-- A token with its text in lower case, unless it is a string. -/
def lowerToken (tok : KdsToken) : KdsToken :=
  if tok.type = .str_lit then tok else { tok with text := lowerText tok.text }

section tokens

variable {tok : KdsToken} {bs : List UInt8}

theorem lowerToken_type (tok : KdsToken) : (lowerToken tok).type = tok.type := by
  unfold lowerToken
  split_ifs <;> rfl

theorem lowerToken_int_val (tok : KdsToken) : (lowerToken tok).int_val = tok.int_val := by
  unfold lowerToken
  split_ifs <;> rfl

theorem lowerToken_text (h : tok.type ≠ .str_lit) : (lowerToken tok).text = lowerText tok.text := by
  unfold lowerToken
  rw [if_neg h]

theorem lowerToken_str_lit (h : tok.type = .str_lit) : lowerToken tok = tok := if_pos h

theorem ofBuffer_lower (bs : List UInt8) :
    CString.ofBuffer (bs.map tolower) = lowerText (CString.ofBuffer bs) := by
  apply CString.ext'
  unfold CString.ofBuffer lowerText
  dsimp only
  rw [List.takeWhile_map]
  congr 2
  funext c
  exact tolower_bne (by decide)

theorem tokText_lower (bs : List UInt8) : tokText (bs.map tolower) = lowerText (tokText bs) := by
  unfold tokText
  rw [← List.map_take, ofBuffer_lower]

theorem strcaseEq_lower (s t : CString) : strcaseEq (lowerText s) t = strcaseEq s t := by
  have htwice : (s.bytes.map tolower).map tolower = s.bytes.map tolower := by
    rw [List.map_map]
    exact List.map_congr_left fun c _ => tolower_tolower c
  unfold strcaseEq lowerText
  rw [htwice]

/-- A text without letters. -/
theorem map_tolower_self (h : ∀ c ∈ bs, isalpha c = false) : bs.map tolower = bs := by
  rw [List.map_congr_left fun c hc => tolower_of_not_alpha (h c hc), List.map_id']

theorem singleType_tolower (c : UInt8) : singleType (tolower c) = singleType c := by
  revert c
  exact forall_char (by decide +kernel)

theorem lowerToken_mk {type : KdsTokenType} (h : type ≠ .str_lit) (bs : List UInt8) (v : Int) :
    lowerToken ⟨type, tokText bs, v⟩ = ⟨type, tokText (bs.map tolower), v⟩ := by
  rw [tokText_lower]
  exact if_neg h

/-- A token is read from the lower case text as it is read from the text. -/
theorem lexer_read_lower (pos : List UInt8) : lexer_read (lowerCode .code pos) =
    (lowerToken (lexer_read pos).1, lowerCode .code (lexer_read pos).2) := by
  have hskip := lowerCode_skip_ws pos
  have hstop := lexer_skip_ws_code pos
  unfold lexer_read
  cases hpos : lexer_skip_ws pos with
  | nil =>
    rw [hskip, hpos]
    rfl
  | cons c cs =>
    rw [hpos] at hskip hstop
    by_cases hquote : c = 39
    · subst hquote
      -- between quotes the text keeps its case
      obtain ⟨htake, hdrop⟩ := lowerCode_string cs
      rw [hskip, lowerCode]
      dsimp only
      rw [if_pos rfl, if_pos rfl, htake, hdrop]
      rfl
    -- outside of them it is one letter at a time, since no comment starts here
    · have hcons : lowerCode .code (c :: cs) = tolower c :: lowerCode .code cs := by
        apply lowerCode_cons hquote
        rintro ⟨rfl, hhead⟩
        cases cs with
        | nil => exact absurd hhead (by decide)
        | cons d cs =>
          obtain rfl : d = 45 := hhead
          exact hstop cs rfl
      -- lowering a letter does not make it one of the characters the lexer branches on
      have hdash : (tolower c == 45) = (c == 45) := by
        rw [Bool.eq_iff_iff, beq_iff_eq, beq_iff_eq, tolower_eq_iff (by decide)]
      have hnext : tolower (cs.headD 0) = 61 ↔ cs.headD 0 = 61 := tolower_eq_iff (by decide)
      have h33 : tolower c = 33 ↔ c = 33 := tolower_eq_iff (by decide)
      have h60 : tolower c = 60 ↔ c = 60 := tolower_eq_iff (by decide)
      have h62 : tolower c = 62 ↔ c = 62 := tolower_eq_iff (by decide)
      have hquote' : ¬ tolower c = 39 := fun h => hquote ((tolower_eq_iff (by decide)).mp h)
      rw [hskip, hcons]
      dsimp only
      rw [if_neg hquote, if_neg hquote', isDigit_tolower, hdash, lowerCode_headD, isDigit_tolower,
        isWordStart_tolower]
      simp only [hnext, h33, h60, h62]
      by_cases hdigit : (isDigit c || (c == 45 && isDigit (cs.headD 0))) = true
      · -- digits have no case
        have hother : ∀ c, isDigit c = true → c ≠ 39 ∧ c ≠ 45 := fun c hc =>
          ⟨(isDigit_other c hc).1, (isDigit_other c hc).2.1⟩
        obtain ⟨htake, hdrop⟩ := lowerCode_run isDigit_tolower hother cs
        have hplain : (c :: cs.takeWhile isDigit).map tolower = c :: cs.takeWhile isDigit := by
          apply map_tolower_self
          intro d hd
          rcases List.mem_cons.mp hd with rfl | hd
          · simp only [Bool.or_eq_true, Bool.and_eq_true, beq_iff_eq] at hdigit
            rcases hdigit with hdigit | ⟨rfl, -⟩
            · exact isDigit_not_alpha d hdigit
            · decide
          · exact isDigit_not_alpha d (List.mem_takeWhile_imp hd)
        rw [if_pos hdigit, if_pos hdigit, htake, hdrop, lowerToken_mk (by decide), ← List.map_cons,
          hplain]
      rw [if_neg hdigit, if_neg hdigit]
      by_cases hword : isWordStart c = true
      -- a word becomes its lower case word, of the same type
      · have hother : ∀ c, isWordChar c = true → c ≠ 39 ∧ c ≠ 45 := forall_char (by decide +kernel)
        obtain ⟨htake, hdrop⟩ := lowerCode_run isWordChar_tolower hother cs
        rw [if_pos hword, if_pos hword, htake, hdrop, ← List.map_cons]
        dsimp only
        rw [tokText_lower, strcaseEq_lower, ← tokText_lower, lowerToken_mk]
        split_ifs <;> decide
      rw [if_neg hword, if_neg hword]
      have hrest : cs.headD 0 = 61 → (lowerCode .code cs).drop 1 = lowerCode .code (cs.drop 1) := by
        intro hhead
        cases cs with
        | nil => exact absurd hhead (by decide)
        | cons d cs =>
          obtain rfl : d = 61 := hhead
          rfl
      split_ifs with hneq hlte hgte
      · rw [hrest hneq.2]
        rfl
      · rw [hrest hlte.2]
        rfl
      · rw [hrest hgte.2]
        rfl
      · rw [lowerToken_mk (singleType_other c).2.2, singleType_tolower]
        rfl

theorem lexTokens_lower (pos : List UInt8) :
    lexTokens (lowerCode .code pos) = (lexTokens pos).map lowerToken := by
  induction pos using lexTokens.induct with
  | case1 pos h =>
    have hlow : (lexer_read (lowerCode .code pos)).1.type = .eof := by
      rw [lexer_read_lower, lowerToken_type, h]
    rw [lexTokens, dif_pos hlow, lexTokens, dif_pos h]
    rfl
  | case2 pos h _ ih =>
    have hlow : (lowerToken (lexer_read pos).1).type ≠ .eof := by
      rw [lowerToken_type]
      exact h
    have hread : lexer_read pos = ((lexer_read pos).1, (lexer_read pos).2) := rfl
    rw [lexTokens_cons (lexer_read_lower pos) hlow, lexTokens_cons hread h, ih, List.map_cons]

end tokens

/-! ## Section 4: Phrases -/

def lowerColumn (col : KdsAstColDef) : KdsAstColDef := { col with name := lowerText col.name }

def lowerCond (cond : KdsAstCond) : KdsAstCond := { cond with col_name := lowerText cond.col_name }

/-- A statement with the names of its table and columns in lower case. -/
def lowerNames : KdsStmt → KdsStmt
  | .create_table stmt => .create_table
      { stmt with table_name := lowerText stmt.table_name, cols := stmt.cols.map lowerColumn }
  | .insert stmt => .insert { stmt with table_name := lowerText stmt.table_name }
  | .select stmt => .select
      { stmt with table_name := lowerText stmt.table_name, conds := stmt.conds.map lowerCond }
  | .show_meta => .show_meta
  | .show_alloc => .show_alloc

/-- The names of types behind the left parenthesis. -/
def columnTypes : List KdsToken → List CString
  | _ :: type :: sep :: toks => type.text :: (if sep.type = .comma then columnTypes toks else [])
  | _ => []

/-- The names of types in `CREATE TABLE <name> ( <col> <type> , ...`. -/
def typeNames : List KdsToken → List CString
  | create :: toks => if isKeyword kwCREATE create then columnTypes (toks.drop 3) else []
  | [] => []

/-- Names of types, as `kds_type_table` has them. -/
def KnownTypes (names : List CString) : Prop :=
  ∀ name ∈ names, (kds_type_lookup_by_name name).isSome

instance : DecidablePred KnownTypes := fun names =>
  inferInstanceAs (Decidable (∀ name ∈ names, (kds_type_lookup_by_name name).isSome))

/-- The same tokens up to the case of their texts. -/
def Alike (toks' toks : List KdsToken) : Prop := toks'.map lowerToken = toks.map lowerToken

section phrases

variable {tok tok' : KdsToken} {toks toks' : List KdsToken} {name : CString}

theorem Alike.nil (h : Alike toks' []) : toks' = [] := List.map_eq_nil_iff.mp h

theorem Alike.cons (h : Alike toks' (tok :: toks)) :
    ∃ tok' rest', toks' = tok' :: rest' ∧ lowerToken tok' = lowerToken tok ∧ Alike rest' toks :=
  List.map_eq_cons_iff.mp h

theorem Alike.append {rest : List KdsToken} (h : Alike toks' (toks ++ rest)) :
    ∃ used' rest', toks' = used' ++ rest' ∧ Alike used' toks ∧ Alike rest' rest := by
  unfold Alike at h
  rw [List.map_append] at h
  exact List.map_eq_append_iff.mp h

theorem type_alike (h : lowerToken tok' = lowerToken tok) : tok'.type = tok.type := by
  rw [← lowerToken_type, h, lowerToken_type]

theorem text_alike (h : lowerToken tok' = lowerToken tok) (htype : tok.type ≠ .str_lit) :
    lowerText tok'.text = lowerText tok.text := by
  have htype' : tok'.type ≠ .str_lit := by
    rw [type_alike h]
    exact htype
  rw [← lowerToken_text htype', h, lowerToken_text htype]

theorem keyword_alike {keyword : CString} (h : lowerToken tok' = lowerToken tok)
    (hkey : isKeyword keyword tok) : isKeyword keyword tok' := by
  obtain ⟨htype, hcase⟩ := hkey
  have htext := text_alike h (by simp [htype])
  refine ⟨(type_alike h).trans htype, ?_⟩
  rw [← strcaseEq_lower, htext, strcaseEq_lower]
  exact hcase

theorem strncpyTo_lower (n : Nat) (s : CString) :
    strncpyTo n (lowerText s) = lowerText (strncpyTo n s) := by
  unfold strncpyTo
  rw [← ofBuffer_lower, List.map_take]
  rfl

theorem name_alike (h : lowerToken tok' = lowerToken tok) (hname : IsName tok name) :
    ∃ name', IsName tok' name' ∧ lowerText name' = lowerText name := by
  obtain ⟨htype, rfl⟩ := isName_iff.mp hname
  have htext := text_alike h (by simp [htype])
  refine ⟨_, isName_iff.mpr ⟨(type_alike h).trans htype, rfl⟩, ?_⟩
  rw [← strncpyTo_lower, htext, strncpyTo_lower]

/-- Values do not change. -/
theorem value_alike {val : KdsAstVal} (h : lowerToken tok' = lowerToken tok) (hval : IsValue tok val) :
    IsValue tok' val := by
  have htype := type_alike h
  cases hval with
  | int hint =>
    rw [← lowerToken_int_val, ← h, lowerToken_int_val]
    exact .int (htype.trans hint)
  | str hstr =>
    have hstr' := htype.trans hstr
    rw [lowerToken_str_lit hstr, lowerToken_str_lit hstr'] at h
    subst h
    exact .str hstr
  | null hnull => exact .null (htype.trans hnull)

/-- The table of types is in lower case. -/
theorem lookup_lower {desc : KdsTypeDesc} (h : kds_type_lookup_by_name name = some desc) :
    lowerText name = name := by
  have htable : ∀ desc ∈ kds_type_table, desc.name.map tolower = desc.name := by decide
  have hlow := htable desc (List.mem_of_find?_eq_some h)
  have hname : desc.name = name.bytes := by simpa using List.find?_some h
  rw [hname] at hlow
  exact CString.ext' hlow

theorem lowerText_of_known (h : (kds_type_lookup_by_name name).isSome) : lowerText name = name := by
  obtain ⟨desc, hdesc⟩ := Option.isSome_iff_exists.mp h
  exact lookup_lower hdesc

/-- A phrase is recognised in any case, as long as `K` holds of it and of what follows. -/
def PhraseAlike {α : Type} (D : List KdsToken → α → Prop) (lower : α → α) (K : List KdsToken → Prop) :
    Prop :=
  ∀ {toks toks' : List KdsToken} {a : α} (next : KdsToken) (rest : List KdsToken), D toks a →
    Alike toks' toks → K (toks' ++ next :: rest) → ∃ a', D toks' a' ∧ lower a' = lower a

theorem column_alike : PhraseAlike Column lowerColumn (KnownTypes ∘ columnTypes) := by
  intro toks toks' col next rest hcol halike hknown
  cases hcol with
  | mk hname htype hdesc =>
    obtain ⟨tok, toks', rfl, htok, halike⟩ := halike.cons
    obtain ⟨type, toks', rfl, htok', halike⟩ := halike.cons
    obtain rfl := halike.nil
    obtain ⟨name', hname', hlow⟩ := name_alike htok hname
    -- both names of the type are in the table, which has no two cases of a name
    have hlower := lowerText_of_known (hknown _ List.mem_cons_self)
    have htext := text_alike htok' (by simp [htype])
    rw [hlower, lookup_lower hdesc] at htext
    rw [← htext] at hdesc
    refine ⟨_, .mk hname' ((type_alike htok').trans htype) hdesc, ?_⟩
    unfold lowerColumn
    rw [hlow]

theorem cond_alike : PhraseAlike Cond lowerCond (fun _ => True) := by
  intro toks toks' cond next rest hcond halike _
  cases hcond with
  | mk hname hop hval =>
    obtain ⟨tok, toks', rfl, htok, halike⟩ := halike.cons
    obtain ⟨op, toks', rfl, hop', halike⟩ := halike.cons
    obtain ⟨val, toks', rfl, hval', halike⟩ := halike.cons
    obtain rfl := halike.nil
    obtain ⟨name', hname', hlow⟩ := name_alike htok hname
    refine ⟨_, .mk hname' ((type_alike hop').trans hop) (value_alike hval' hval), ?_⟩
    unfold lowerCond
    rw [hlow]

theorem item_alike : PhraseAlike (One IsValue) id (fun _ => True) := by
  intro toks toks' val next rest hval halike _
  obtain ⟨tok, rfl, hval⟩ := hval
  obtain ⟨tok', toks', rfl, htok, halike⟩ := halike.cons
  obtain rfl := halike.nil
  exact ⟨val, ⟨tok', rfl, value_alike htok hval⟩, rfl⟩

/-- **A list** of phrases. -/
theorem list_alike {α : Type} {sep : KdsToken → Prop} {D : List KdsToken → α → Prop} {lower : α → α}
    {K : List KdsToken → Prop} {as : List α}
    (hsep : ∀ {tok tok'}, lowerToken tok' = lowerToken tok → sep tok → sep tok')
    (hphrase : PhraseAlike D lower K)
    (hnext : ∀ {used a next rest}, D used a → sep next → K (used ++ next :: rest) → K rest)
    (h : SepList sep D toks as) : ∀ {toks'} next rest, Alike toks' toks → K (toks' ++ next :: rest) →
      ∃ as', SepList sep D toks' as' ∧ as'.map lower = as.map lower := by
  induction h with
  | one hone =>
    intro toks' next rest halike hknown
    obtain ⟨a', hone', hlow⟩ := hphrase next rest hone halike hknown
    exact ⟨[a'], .one hone', congrArg (fun b => [b]) hlow⟩
  | cons hone hs _ ih =>
    intro toks' next rest halike hknown
    obtain ⟨used', toks', rfl, hused, halike⟩ := halike.append
    obtain ⟨sep', toks', rfl, hs', halike⟩ := halike.cons
    rw [List.append_assoc, List.cons_append] at hknown
    obtain ⟨a', hone', hlow⟩ := hphrase sep' _ hone hused hknown
    have hsep' := hsep hs' hs
    obtain ⟨as', hrest, hlows⟩ := ih next rest halike (hnext hone' hsep' hknown)
    refine ⟨a' :: as', .cons hone' hsep' hrest, ?_⟩
    rw [List.map_cons, List.map_cons, hlow, hlows]

theorem columnTypes_comma {col type sep : KdsToken} (h : IsComma sep) (toks : List KdsToken) :
    columnTypes ([col, type] ++ sep :: toks) = type.text :: columnTypes toks := congrArg _ (if_pos h)

theorem columnTypes_end {col type sep : KdsToken} (h : ¬ IsComma sep) (toks : List KdsToken) :
    columnTypes ([col, type] ++ sep :: toks) = [type.text] := congrArg _ (if_neg h)

theorem columnTypes_next {used rest : List KdsToken} {col : KdsAstColDef} {next : KdsToken}
    (hcol : Column used col) (hnext : IsComma next)
    (h : KnownTypes (columnTypes (used ++ next :: rest))) : KnownTypes (columnTypes rest) := by
  cases hcol with
  | mk =>
    rw [columnTypes_comma hnext] at h
    exact fun name hname => h name (List.mem_cons_of_mem _ hname)

theorem columns_known {cols : List KdsAstColDef} (h : SepList IsComma Column toks cols) (next : KdsToken)
    (rest : List KdsToken) (hnext : ¬ IsComma next) :
    KnownTypes (columnTypes (toks ++ next :: rest)) := by
  induction h with
  | one hcol =>
    cases hcol with
    | mk _ _ hdesc =>
      rw [columnTypes_end hnext]
      exact List.forall_mem_singleton.mpr (Option.isSome_iff_exists.mpr ⟨_, hdesc⟩)
  | cons hcol hs _ ih =>
    cases hcol with
    | mk _ _ hdesc =>
      rw [List.append_assoc]
      change KnownTypes (columnTypes ([_, _] ++ _ :: (_ ++ next :: rest)))
      rw [columnTypes_comma hs]
      exact List.forall_mem_cons.mpr ⟨Option.isSome_iff_exists.mpr ⟨_, hdesc⟩, ih⟩

theorem Where.alike {clause : Bool × List KdsAstCond} (h : Where toks clause)
    (halike : Alike toks' toks) : ∃ conds', Where toks' (clause.1, conds') ∧
      conds'.map lowerCond = clause.2.map lowerCond := by
  cases h with
  | none =>
    obtain rfl := halike.nil
    exact ⟨[], .none, rfl⟩
  | conds hkey hconds hlen =>
    obtain ⟨tok', toks', rfl, htok, halike⟩ := halike.cons
    obtain ⟨conds', hconds', hlow⟩ :=
      list_alike keyword_alike cond_alike (fun _ _ _ => trivial) hconds eofToken [] halike trivial
    have hsize := congrArg List.length hlow
    rw [List.length_map, List.length_map] at hsize
    exact ⟨conds', .conds (keyword_alike htok hkey) hconds' (hsize.trans_le hlen), hlow⟩

theorem Storage.alike {clustered : ClusteredType} (h : Storage toks clustered)
    (halike : Alike toks' toks) : Storage toks' clustered := by
  cases h with
  | none =>
    obtain rfl := halike.nil
    exact .none
  | heap hkey =>
    obtain ⟨tok', toks', rfl, htok, halike⟩ := halike.cons
    obtain rfl := halike.nil
    exact .heap (keyword_alike htok hkey)
  | btree hkey =>
    obtain ⟨tok', toks', rfl, htok, halike⟩ := halike.cons
    obtain rfl := halike.nil
    exact .btree (keyword_alike htok hkey)

theorem Semicolon.alike (h : Semicolon toks) (halike : Alike toks' toks) : Semicolon toks' := by
  cases h with
  | none =>
    obtain rfl := halike.nil
    exact .none
  | some hsemi =>
    obtain ⟨tok', toks', rfl, htok, halike⟩ := halike.cons
    obtain rfl := halike.nil
    exact .some ((type_alike htok).trans hsemi)

end phrases

/-! ## Section 5: Statements -/

section statements

variable {toks toks' : List KdsToken} {stmt : KdsStmt}

theorem typeNames_create {create : KdsToken} (h : isKeyword kwCREATE create) (toks : List KdsToken) :
    typeNames (create :: toks) = columnTypes (toks.drop 3) := if_pos h

theorem typeNames_not_create {tok : KdsToken} (h : ¬ isKeyword kwCREATE tok) (toks : List KdsToken) :
    typeNames (tok :: toks) = [] := if_neg h

theorem typeNames_other {tok : KdsToken} {keyword : CString} (h : isKeyword keyword tok)
    (hkey : keyword.bytes.map tolower ≠ kwCREATE.bytes.map tolower) (toks : List KdsToken) :
    typeNames (tok :: toks) = [] :=
  typeNames_not_create (fun hcreate => hkey (isKeyword_unique h hcreate)) toks

theorem knownTypes_nil : KnownTypes [] := fun _ h => absurd h List.not_mem_nil

/-- The types of a statement are in the table. -/
theorem Statement.known (h : Statement toks stmt) : KnownTypes (typeNames toks) := by
  cases h with
  | create_table hcreate hstmt =>
    rw [typeNames_create hcreate]
    cases hstmt with
    | mk _ _ _ hcols _ hrparen =>
      have hnext : ¬ IsComma _ := fun hcomma => absurd (hrparen.symm.trans hcomma) (by decide)
      exact columns_known hcols _ _ hnext
  | insert hinsert _ =>
    rw [typeNames_other hinsert (by decide)]
    exact knownTypes_nil
  | select hselect _ =>
    rw [typeNames_other hselect (by decide)]
    exact knownTypes_nil
  | show_ hshow _ =>
    rw [typeNames_other hshow (by decide)]
    exact knownTypes_nil

/-- **A statement** in another case is the same statement, if its types are in the table. -/
theorem Statement.alike (h : Statement toks stmt) (halike : Alike toks' toks)
    (hknown : KnownTypes (typeNames toks')) :
    ∃ stmt', Statement toks' stmt' ∧ lowerNames stmt' = lowerNames stmt := by
  -- token by token: keywords and punctuation stay, names and lists are alike
  cases h with
  | create_table hcreate hstmt =>
    cases hstmt with
    | mk htable hname hlparen hcols hlen hrparen hstorage hsemi =>
      obtain ⟨create', toks', rfl, hcreate', halike⟩ := halike.cons
      obtain ⟨table', toks', rfl, htable', halike⟩ := halike.cons
      obtain ⟨tok', toks', rfl, htok', halike⟩ := halike.cons
      obtain ⟨lparen', toks', rfl, hlparen', halike⟩ := halike.cons
      obtain ⟨items', toks', rfl, hitems', halike⟩ := halike.append
      obtain ⟨rparen', toks', rfl, hrparen', halike⟩ := halike.cons
      obtain ⟨storage', semi', rfl, hstorage', hsemi'⟩ := halike.append
      have hkey := keyword_alike hcreate' hcreate
      rw [typeNames_create hkey] at hknown
      obtain ⟨name', hname', hlow⟩ := name_alike htok' hname
      -- the column types are the one place where the case counts
      obtain ⟨cols', hcols', hlows⟩ := list_alike (fun h hcomma => (type_alike h).trans hcomma)
        column_alike columnTypes_next hcols rparen' _ hitems' hknown
      have hsize := congrArg List.length hlows
      rw [List.length_map, List.length_map] at hsize
      refine ⟨_, .create_table hkey (.mk (keyword_alike htable' htable) hname'
        ((type_alike hlparen').trans hlparen) hcols' (hsize.trans_le hlen)
        ((type_alike hrparen').trans hrparen) (hstorage.alike hstorage') (hsemi.alike hsemi')), ?_⟩
      simp only [lowerNames, hlow, hlows]
  | insert hinsert hstmt =>
    cases hstmt with
    | mk hinto hname hvalues hlparen hvals hlen hrparen hsemi =>
      obtain ⟨insert', toks', rfl, hinsert', halike⟩ := halike.cons
      obtain ⟨into', toks', rfl, hinto', halike⟩ := halike.cons
      obtain ⟨tok', toks', rfl, htok', halike⟩ := halike.cons
      obtain ⟨values', toks', rfl, hvalues', halike⟩ := halike.cons
      obtain ⟨lparen', toks', rfl, hlparen', halike⟩ := halike.cons
      obtain ⟨items', toks', rfl, hitems', halike⟩ := halike.append
      obtain ⟨rparen', semi', rfl, hrparen', hsemi'⟩ := halike.cons
      obtain ⟨name', hname', hlow⟩ := name_alike htok' hname
      obtain ⟨vals', hvals', hsame⟩ := list_alike (fun h hcomma => (type_alike h).trans hcomma)
        item_alike (fun _ _ _ => trivial) hvals rparen' semi' hitems' trivial
      rw [List.map_id, List.map_id] at hsame
      subst hsame
      refine ⟨_, .insert (keyword_alike hinsert' hinsert) (.mk (keyword_alike hinto' hinto) hname'
        (keyword_alike hvalues' hvalues) ((type_alike hlparen').trans hlparen) hvals' hlen
        ((type_alike hrparen').trans hrparen) (hsemi.alike hsemi')), ?_⟩
      simp only [lowerNames, hlow]
  | select hselect hstmt =>
    cases hstmt with
    | mk hstar hfrom hname hwhere hsemi =>
      obtain ⟨select', toks', rfl, hselect', halike⟩ := halike.cons
      obtain ⟨star', toks', rfl, hstar', halike⟩ := halike.cons
      obtain ⟨source', toks', rfl, hfrom', halike⟩ := halike.cons
      obtain ⟨tok', toks', rfl, htok', halike⟩ := halike.cons
      obtain ⟨items', semi', rfl, hitems', hsemi'⟩ := halike.append
      obtain ⟨name', hname', hlow⟩ := name_alike htok' hname
      obtain ⟨conds', hwhere', hlows⟩ := hwhere.alike hitems'
      refine ⟨_, .select (keyword_alike hselect' hselect) (.mk ((type_alike hstar').trans hstar)
        (keyword_alike hfrom' hfrom) hname' hwhere' (hsemi.alike hsemi')), ?_⟩
      simp only [lowerNames, hlow, hlows]
  | show_ hshow hstmt =>
    obtain ⟨show', toks', rfl, hshow', halike⟩ := halike.cons
    have hkey := keyword_alike hshow' hshow
    cases hstmt with
    | meta_ hmeta hsemi =>
      obtain ⟨tok', semi', rfl, hmeta', hsemi'⟩ := halike.cons
      exact ⟨_, .show_ hkey (.meta_ (keyword_alike hmeta' hmeta) (hsemi.alike hsemi')), rfl⟩
    | alloc halloc hsemi =>
      obtain ⟨tok', semi', rfl, halloc', hsemi'⟩ := halike.cons
      exact ⟨_, .show_ hkey (.alloc (keyword_alike halloc' halloc) (hsemi.alike hsemi')), rfl⟩

end statements

/-! ## Section 6: The parser -/

/-- The law for two texts: both are accepted or none is, and what is accepted is the
    same up to the case of names. -/
def ParsedAlike (sql sql' : CString) : Prop :=
  ∀ err_buf_size,
    ((∃ stmt, (kds_parse sql err_buf_size).1 = .ok stmt) ↔
      ∃ stmt, (kds_parse sql' err_buf_size).1 = .ok stmt) ∧
    ∀ stmt stmt', (kds_parse sql err_buf_size).1 = .ok stmt →
      (kds_parse sql' err_buf_size).1 = .ok stmt' → lowerNames stmt = lowerNames stmt'

/-- In lower case the text is a statement. -/
def LowerStatement (sql : CString) : Prop :=
  ∃ stmt, Statement (lexTokens (lowerCode .code sql.bytes)) stmt

/-- The names of types in the text are as the table has them. -/
def TypesKnown (sql : CString) : Prop := KnownTypes (typeNames (lexTokens sql.bytes))

instance : DecidablePred TypesKnown := fun sql =>
  inferInstanceAs (Decidable (KnownTypes (typeNames (lexTokens sql.bytes))))

section parser

variable {sql sql' : CString}

theorem lowerText_lowerText (s : CString) : lowerText (lowerText s) = lowerText s := by
  apply CString.ext'
  unfold lowerText
  dsimp only
  rw [List.map_map]
  exact List.map_congr_left fun c _ => tolower_tolower c

theorem lowerToken_lowerToken (tok : KdsToken) : lowerToken (lowerToken tok) = lowerToken tok := by
  by_cases h : tok.type = .str_lit
  · rw [lowerToken_str_lit h, lowerToken_str_lit h]
  · unfold lowerToken
    rw [if_neg h, if_neg h, lowerText_lowerText]

theorem alike_lower (toks : List KdsToken) : Alike toks (toks.map lowerToken) := by
  unfold Alike
  rw [List.map_map]
  exact List.map_congr_left fun tok _ => (lowerToken_lowerToken tok).symm

theorem known_text {tok : KdsToken} (h : (kds_type_lookup_by_name tok.text).isSome) :
    (lowerToken tok).text = tok.text := by
  unfold lowerToken
  split_ifs
  · rfl
  · exact lowerText_of_known h

theorem columnTypes_lower {toks : List KdsToken} (h : KnownTypes (columnTypes toks)) :
    columnTypes (toks.map lowerToken) = columnTypes toks := by
  induction toks using columnTypes.induct with
  | case1 col type sep toks ih =>
    obtain ⟨htype, hrest⟩ := List.forall_mem_cons.mp h
    rw [List.map_cons, List.map_cons, List.map_cons, columnTypes, columnTypes, known_text htype,
      lowerToken_type]
    congr 1
    split_ifs with hcomma
    · rw [if_pos hcomma] at hrest
      exact ih hrest
    · rfl
  | case2 toks hshort =>
    cases toks with
    | nil => rfl
    | cons col toks =>
      cases toks with
      | nil => rfl
      | cons type toks =>
        cases toks with
        | nil => rfl
        | cons sep toks => exact absurd rfl (hshort col type sep toks)

theorem typeNames_lower {toks : List KdsToken} (h : KnownTypes (typeNames toks)) :
    KnownTypes (typeNames (toks.map lowerToken)) := by
  cases toks with
  | nil => exact h
  | cons create toks =>
    rw [List.map_cons]
    by_cases hkey : isKeyword kwCREATE (lowerToken create)
    · rw [typeNames_create (keyword_alike (lowerToken_lowerToken create).symm hkey)] at h
      rw [typeNames_create hkey, ← List.map_drop, columnTypes_lower h]
      exact h
    · rw [typeNames_not_create hkey]
      exact knownTypes_nil

theorem Statement.lower {stmt : KdsStmt} (h : Statement (lexTokens sql.bytes) stmt) :
    ∃ stmt', Statement (lexTokens (lowerCode .code sql.bytes)) stmt' ∧
      lowerNames stmt' = lowerNames stmt := by
  rw [lexTokens_lower]
  exact h.alike (alike_lower _).symm (typeNames_lower h.known)

theorem Statement.of_lower {stmt : KdsStmt} (h : Statement (lexTokens (lowerCode .code sql.bytes)) stmt)
    (hknown : TypesKnown sql) :
    ∃ stmt', Statement (lexTokens sql.bytes) stmt' ∧ lowerNames stmt' = lowerNames stmt := by
  rw [lexTokens_lower] at h
  exact h.alike (alike_lower _) hknown

theorem kds_parse_accepts_lower (sql : CString) (err_buf_size : Nat) :
    (∃ stmt, (kds_parse sql err_buf_size).1 = .ok stmt) ↔ LowerStatement sql ∧ TypesKnown sql := by
  constructor
  · rintro ⟨stmt, hparse⟩
    have hstmt := ((kds_parse_accepts sql err_buf_size).1 stmt).mp hparse
    obtain ⟨stmt', hlow, -⟩ := hstmt.lower
    exact ⟨⟨stmt', hlow⟩, hstmt.known⟩
  · rintro ⟨⟨stmt, hlow⟩, hknown⟩
    obtain ⟨stmt', hstmt, -⟩ := hlow.of_lower hknown
    exact ⟨stmt', ((kds_parse_accepts sql err_buf_size).1 stmt').mpr hstmt⟩

/-- **Letter case** is ignored where the names of types are known in both texts or in none. -/
theorem kds_parse_case_iff (h : Recased sql sql') :
    ParsedAlike sql sql' ↔ (LowerStatement sql → (TypesKnown sql ↔ TypesKnown sql')) := by
  have hsame : lowerCode .code sql.bytes = lowerCode .code sql'.bytes := h
  have hlow : LowerStatement sql ↔ LowerStatement sql' := by
    unfold LowerStatement
    rw [hsame]
  constructor
  · intro halike
    have hboth := (halike 0).1
    rw [kds_parse_accepts_lower, kds_parse_accepts_lower, ← hlow] at hboth
    exact and_congr_right_iff.mp hboth
  · intro hcond err_buf_size
    constructor
    · rw [kds_parse_accepts_lower, kds_parse_accepts_lower, ← hlow]
      exact and_congr_right_iff.mpr hcond
    · intro stmt stmt' hparse hparse'
      have haccepts := (kds_parse_accepts sql err_buf_size).1
      have hstmt := (haccepts stmt).mp hparse
      have hstmt' := ((kds_parse_accepts sql' err_buf_size).1 stmt').mp hparse'
      -- the second text in lower case is the first one, which has one meaning
      obtain ⟨low, hlow, hnames⟩ := hstmt'.lower
      rw [← hsame] at hlow
      obtain ⟨stmt'', hstmt'', hnames'⟩ := hlow.of_lower hstmt.known
      obtain rfl := Except.ok.inj (hparse.symm.trans ((haccepts stmt'').mpr hstmt''))
      exact hnames'.trans hnames

end parser

/-- A statement in two cases that differ all over but in the name of the type. -/
def mixedText : CString := ⟨ascii "Create Table People (Age int8) BTree", by decide⟩

def plainText : CString := ⟨ascii "CREATE TABLE people (age int8) btree", by decide⟩

theorem kds_parse_case_people : ParsedAlike mixedText plainText :=
  (kds_parse_case_iff (by decide +kernel)).mpr
    fun _ => iff_of_true (by decide +kernel) (by decide +kernel)

/-- The name of the type as the grammar of the header has it. -/
def headerText : CString := ⟨ascii "CREATE TABLE people (age INT8) btree", by decide⟩

/-- The parser does not know it. -/
theorem kds_parse_case_type : Recased headerText plainText ∧
    (kds_parse headerText 0).1 = .error .EINVAL ∧ ¬ ParsedAlike headerText plainText := by
  have hheader : (kds_parse headerText 0).1 = .error .EINVAL := by decide +kernel
  have hplain : (kds_parse plainText 0).1.isOk = true := by decide +kernel
  refine ⟨by decide +kernel, hheader, fun halike => ?_⟩
  cases hparse : (kds_parse plainText 0).1 with
  | error e =>
    rw [hparse] at hplain
    cases hplain
  | ok stmt =>
    obtain ⟨stmt', hstmt'⟩ := (halike 0).1.mpr ⟨stmt, hparse⟩
    rw [hheader] at hstmt'
    cases hstmt'

end Kds
