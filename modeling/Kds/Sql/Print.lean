import Kds.Sql.Grammar

/-! # Printing statements

    A statement is printed token by token, with keywords in any case, and with
    whitespace and comments between the tokens. Two tokens may stand side by
    side where the lexer does not read on from one into the other. The parser
    reads back what was printed.
-/

open Bytes Decimal Recognise

namespace Kds

/-! ## Section 1: Texts of tokens -/

def isAsciiLetter (c : UInt8) : Bool :=
  (decide (65 ≤ c) && decide (c ≤ 90)) || (decide (97 ≤ c) && decide (c ≤ 122))

/-- `[A-Za-z_]`. -/
def isIdentStart (c : UInt8) : Bool := isAsciiLetter c || c == 95

/-- `[A-Za-z0-9_]`. -/
def isIdentChar (c : UInt8) : Bool := isIdentStart c || isDigit c

theorem kwNULL_no_nul : (0 : UInt8) ∉ ascii "NULL" := by decide

def kwNULL : CString := ⟨ascii "NULL", kwNULL_no_nul⟩

/-- A text that spells a keyword in some case. -/
def Spells (keyword : CString) (text : List UInt8) : Prop :=
  text.map tolower = keyword.bytes.map tolower

instance (keyword : CString) (text : List UInt8) : Decidable (Spells keyword text) :=
  inferInstanceAs (Decidable (text.map tolower = keyword.bytes.map tolower))

/-- The names that can be printed. -/
structure IsIdent (name : CString) : Prop where
  start : ∃ c cs, name.bytes = c :: cs ∧ isIdentStart c
  chars : ∀ c ∈ name.bytes, isIdentChar c
  short : name.bytes.length < KDS_PARSER_NAME_MAX
  not_null : ¬ Spells kwNULL name.bytes

/-- The strings that can be printed. -/
structure IsLiteral (s : CString) : Prop where
  no_quote : (39 : UInt8) ∉ s.bytes
  short : s.bytes.length < KDS_PARSER_VAL_MAX

/-- A value and its text. -/
inductive PrintedValue : List UInt8 → KdsAstVal → Prop where
  | int {v : Int} : -2 ^ 63 ≤ v → v < 2 ^ 63 → PrintedValue (fmtLld v) (.int v)
  | str {s : CString} : IsLiteral s → PrintedValue (39 :: (s.bytes ++ [39])) (.str s)
  | null {text : List UInt8} : Spells kwNULL text → PrintedValue text .null

/-- `kds_cond_op_name`. -/
def kds_cond_op_name : KdsCondOp → List UInt8
  | .eq => [61]
  | .neq => [33, 61]
  | .lt => [60]
  | .lte => [60, 61]
  | .gt => [62]
  | .gte => [62, 61]

/-! ## Section 2: Texts of statements -/

inductive PrintedColumn : List (List UInt8) → KdsAstColDef → Prop where
  | mk {name : CString} {desc : KdsTypeDesc} : IsIdent name → desc ∈ kds_type_table →
      PrintedColumn [name.bytes, desc.name] ⟨name, desc.type_val, desc.fixed_len⟩

inductive PrintedCond : List (List UInt8) → KdsAstCond → Prop where
  | mk {name : CString} {op : KdsCondOp} {val : KdsAstVal} {text : List UInt8} : IsIdent name →
      PrintedValue text val → PrintedCond [name.bytes, kds_cond_op_name op, text] ⟨name, op, val⟩

def PrintedComma (text : List UInt8) : Prop := text = [44]

/-- The storage clause may be left out for a heap. -/
inductive PrintedStorage : List (List UInt8) → ClusteredType → Prop where
  | none : PrintedStorage [] .heap
  | heap {text : List UInt8} : Spells kwHEAP text → PrintedStorage [text] .heap
  | btree {text : List UInt8} : Spells kwBTREE text → PrintedStorage [text] .btree

inductive PrintedWhere : List (List UInt8) → Bool × List KdsAstCond → Prop where
  | none : PrintedWhere [] (false, [])
  | conds {text : List UInt8} {texts : List (List UInt8)} {conds : List KdsAstCond} :
      Spells kwWHERE text → SepList (Spells kwAND) PrintedCond texts conds →
      conds.length ≤ KDS_PARSER_MAX_CONDS → PrintedWhere (text :: texts) (true, conds)

inductive PrintedSemicolon : List (List UInt8) → Prop where
  | none : PrintedSemicolon []
  | some : PrintedSemicolon [[59]]

/-- A statement and the texts of its tokens. -/
inductive PrintedStmt : List (List UInt8) → KdsStmt → Prop where
  | create_table {create table : List UInt8} {texts storage semi : List (List UInt8)}
      {name : CString} {cols : List KdsAstColDef} {clustered : ClusteredType} :
      Spells kwCREATE create → Spells kwTABLE table → IsIdent name →
      SepList PrintedComma PrintedColumn texts cols → cols.length ≤ KDS_PARSER_MAX_COLS →
      PrintedStorage storage clustered → PrintedSemicolon semi →
      PrintedStmt (create :: table :: name.bytes :: [40] :: (texts ++ [41] :: (storage ++ semi)))
        (.create_table ⟨name, cols, clustered⟩)
  | insert {insert into values : List UInt8} {texts semi : List (List UInt8)} {name : CString}
      {vals : List KdsAstVal} :
      Spells kwINSERT insert → Spells kwINTO into → IsIdent name → Spells kwVALUES values →
      SepList PrintedComma (One PrintedValue) texts vals → vals.length ≤ KDS_PARSER_MAX_VALS →
      PrintedSemicolon semi →
      PrintedStmt (insert :: into :: name.bytes :: values :: [40] :: (texts ++ [41] :: semi))
        (.insert ⟨name, vals⟩)
  | select {select source : List UInt8} {texts semi : List (List UInt8)} {name : CString}
      {has_where : Bool} {conds : List KdsAstCond} :
      Spells kwSELECT select → Spells kwFROM source → IsIdent name →
      PrintedWhere texts (has_where, conds) → PrintedSemicolon semi →
      PrintedStmt (select :: [42] :: source :: name.bytes :: (texts ++ semi))
        (.select ⟨name, has_where, conds⟩)
  | show_meta {show_ target : List UInt8} {semi : List (List UInt8)} : Spells kwSHOW show_ →
      Spells kwMETA target → PrintedSemicolon semi → PrintedStmt (show_ :: target :: semi) .show_meta
  | show_alloc {show_ target : List UInt8} {semi : List (List UInt8)} : Spells kwSHOW show_ →
      Spells kwALLOC target → PrintedSemicolon semi →
      PrintedStmt (show_ :: target :: semi) .show_alloc

/-! ## Section 3: Texts of inputs -/

/-- Whitespace, and comments up to the end of their line. -/
inductive Blank : List UInt8 → Prop where
  | nil : Blank []
  | space {c : UInt8} {s : List UInt8} : isspace c → Blank s → Blank (c :: s)
  | comment {body s : List UInt8} : (10 : UInt8) ∉ body → Blank s →
      Blank (45 :: 45 :: (body ++ 10 :: s))

/-- The lexer reads on from a token into what follows it: a word or a number into its
    next character, and `<` or `>` into `=`. -/
def glues (text rest : List UInt8) : Bool :=
  match text, rest with
  | c :: cs, d :: _ =>
    (isWordStart c && isWordChar d) || ((isDigit c || c == 45) && isDigit d) ||
      ((c == 60 || c == 62) && cs == [] && d == 61)
  | _, _ => false

/-- Texts of tokens, and an input made up of them. -/
inductive Rendered : List (List UInt8) → List UInt8 → Prop where
  | nil {sep : List UInt8} : Blank sep → Rendered [] sep
  /-- A comment at the end of the input. -/
  | comment {sep body : List UInt8} : Blank sep → (10 : UInt8) ∉ body →
      Rendered [] (sep ++ 45 :: 45 :: body)
  | cons {sep text rest : List UInt8} {texts : List (List UInt8)} : Blank sep →
      glues text rest = false → Rendered texts rest → Rendered (text :: texts) (sep ++ (text ++ rest))

/-! ## Section 4: Separators -/

theorem lexer_skip_ws_space {c : UInt8} (h : isspace c) (pos : List UInt8) :
    lexer_skip_ws (c :: pos) = lexer_skip_ws pos := by
  have hdrop : (c :: pos).dropWhile isspace = pos.dropWhile isspace :=
    List.dropWhile_cons_of_pos h
  by_cases hcomment : ∃ rest, pos.dropWhile isspace = 45 :: 45 :: rest
  · obtain ⟨rest, hrest⟩ := hcomment
    rw [lexer_skip_ws_comment hrest, lexer_skip_ws_comment (hdrop.trans hrest)]
  · have hno : ∀ rest, pos.dropWhile isspace ≠ 45 :: 45 :: rest := fun rest h => hcomment ⟨rest, h⟩
    rw [lexer_skip_ws_stop hno, lexer_skip_ws_stop (by rw [hdrop]; exact hno), hdrop]

/-- The lexer skips separators. -/
theorem Blank.skip {sep : List UInt8} (h : Blank sep) (pos : List UInt8) :
    lexer_skip_ws (sep ++ pos) = lexer_skip_ws pos := by
  induction h with
  | nil => rfl
  | space hc _ ih => rw [List.cons_append, lexer_skip_ws_space hc, ih]
  | @comment body s hbody _ ih =>
    have hdrop : (45 :: 45 :: (body ++ 10 :: s) ++ pos).dropWhile isspace =
        45 :: 45 :: (body ++ 10 :: (s ++ pos)) := by
      rw [List.cons_append, List.dropWhile_cons_of_neg (by decide), List.cons_append,
        List.append_assoc, List.cons_append]
    have hline : (body ++ 10 :: (s ++ pos)).dropWhile (· != 10) = 10 :: (s ++ pos) := by
      rw [List.dropWhile_append_of_pos, List.dropWhile_cons_of_neg (by decide)]
      intro c hc
      simp only [bne_iff_ne, ne_eq]
      rintro rfl
      exact hbody hc
    rw [lexer_skip_ws_comment hdrop, hline, lexer_skip_ws_space (by decide), ih]

theorem lexer_skip_ws_nil : lexer_skip_ws [] = [] := lexer_skip_ws_stop (by simp)

theorem lexer_skip_ws_last_comment {body : List UInt8} (h : (10 : UInt8) ∉ body) :
    lexer_skip_ws (45 :: 45 :: body) = [] := by
  have hdrop : (45 :: 45 :: body).dropWhile isspace = 45 :: 45 :: body :=
    List.dropWhile_cons_of_neg (by decide)
  have hline : body.dropWhile (· != 10) = [] := by
    apply List.dropWhile_eq_nil_iff.mpr
    intro c hc
    simp only [bne_iff_ne, ne_eq]
    rintro rfl
    exact h hc
  rw [lexer_skip_ws_comment hdrop, hline, lexer_skip_ws_nil]

/-- A token starts where the lexer stops to skip. -/
theorem lexer_skip_ws_token {c : UInt8} {pos : List UInt8} (hspace : isspace c = false)
    (hcomment : c = 45 → pos.head? ≠ some 45) : lexer_skip_ws (c :: pos) = c :: pos := by
  have hdrop : (c :: pos).dropWhile isspace = c :: pos :=
    List.dropWhile_cons_of_neg (by simp [hspace])
  rw [lexer_skip_ws_stop, hdrop]
  intro rest hrest
  rw [hdrop] at hrest
  obtain ⟨hc, hpos⟩ := List.cons.inj hrest
  exact hcomment hc (by rw [hpos]; rfl)

/-! ## Section 5: Lexing the texts -/

/-- The text is read as the token, whatever follows that it does not read on into. -/
def Lexeme (text : List UInt8) (tok : KdsToken) : Prop :=
  tok.type ≠ .eof ∧ ∀ rest, glues text rest = false → lexer_read (text ++ rest) = (tok, rest)

theorem lexer_read_blank {sep : List UInt8} (h : Blank sep) (pos : List UInt8) :
    lexer_read (sep ++ pos) = lexer_read pos := by
  unfold lexer_read
  rw [h.skip]

/-- **Lexing an input** gives the tokens of its texts. -/
theorem Rendered.lexTokens {texts : List (List UInt8)} {input : List UInt8}
    (h : Rendered texts input) {toks : List KdsToken} (htoks : List.Forall₂ Lexeme texts toks) :
    lexTokens input = toks := by
  induction h generalizing toks with
  | nil hsep =>
    cases htoks
    have hread := lexer_read_blank hsep []
    rw [List.append_nil] at hread
    apply lexTokens_nil
    rw [hread]
    unfold lexer_read
    rw [lexer_skip_ws_nil]
  | comment hsep hbody =>
    cases htoks
    apply lexTokens_nil
    rw [lexer_read_blank hsep]
    unfold lexer_read
    rw [lexer_skip_ws_last_comment hbody]
  | cons hsep hglue _ ih =>
    cases htoks with
    | cons htext htoks =>
      rw [lexTokens_cons ((lexer_read_blank hsep _).trans (htext.2 _ hglue)) htext.1, ih htoks]

/-- A run of characters, and where it ends. -/
theorem span_run {p : UInt8 → Bool} {run rest : List UInt8} (hrun : ∀ c ∈ run, p c = true)
    (hrest : ∀ c, rest.head? = some c → p c = false) :
    (run ++ rest).takeWhile p = run ∧ (run ++ rest).dropWhile p = rest := by
  rw [List.takeWhile_append_of_pos hrun, List.dropWhile_append_of_pos hrun]
  cases rest with
  | nil => simp
  | cons c rest =>
    have hc := hrest c rfl
    simp [hc]

/-- What is short enough fits a token. -/
theorem tokText_eq {s : CString} {bs : List UInt8} (hs : bs = s.bytes)
    (hlen : bs.length < KDS_PARSER_VAL_MAX) : tokText bs = s := by
  unfold tokText
  rw [List.take_of_length_le (by simp only [KDS_PARSER_VAL_MAX] at hlen ⊢; omega), hs]
  exact CString.ext' (CString.ofBuffer_bytes s.no_nul)

/-- A fact about characters is checked for each of them. -/
theorem forall_char {p : UInt8 → Prop} (h : ∀ n < 256, p (UInt8.ofNat n)) (c : UInt8) : p c := by
  have hc := h c.toNat c.toNat_lt
  rwa [UInt8.ofNat_toNat] at hc

/-- The first character of a word starts no other token. -/
theorem isWordStart_other (c : UInt8) : isWordStart c = true →
    c ≠ 39 ∧ isDigit c = false ∧ c ≠ 45 ∧ isspace c = false ∧ isWordChar c = true := by
  revert c
  exact forall_char (by decide +kernel)

theorem isDigit_other (c : UInt8) : isDigit c = true → c ≠ 39 ∧ c ≠ 45 ∧ isspace c = false := by
  revert c
  exact forall_char (by decide +kernel)

/-- Words. -/
theorem lexer_read_word {c : UInt8} {cs : List UInt8} {s : CString} (hs : s.bytes = c :: cs)
    (hc : isWordStart c = true) (hcs : ∀ d ∈ cs, isWordChar d = true)
    (hlen : s.bytes.length < KDS_PARSER_VAL_MAX) :
    Lexeme s.bytes ⟨if strcaseEq s kwNULL then .null else .ident, s, 0⟩ := by
  constructor
  · dsimp only
    split_ifs <;> simp
  intro rest hglue
  obtain ⟨hquote, hdigit, hminus, hspace, _⟩ := isWordStart_other c hc
  have hend : ∀ d, rest.head? = some d → isWordChar d = false := by
    intro d hd
    cases rest with
    | nil => cases hd
    | cons e rest =>
      obtain rfl := Option.some.inj hd
      by_contra hword
      rw [Bool.not_eq_false] at hword
      rw [hs] at hglue
      simp [glues, hc, hword] at hglue
  obtain ⟨htake, hdrop⟩ := span_run hcs hend
  have hskip : lexer_skip_ws (s.bytes ++ rest) = c :: (cs ++ rest) := by
    rw [hs, List.cons_append]
    exact lexer_skip_ws_token hspace fun h => (hminus h).elim
  have htext : tokText (c :: cs) = s := tokText_eq hs.symm (by rw [← hs]; exact hlen)
  have hnumber : ¬ (isDigit c || (c == 45 && isDigit ((cs ++ rest).headD 0))) = true := by
    simp [hdigit, hminus]
  unfold lexer_read
  rw [hskip]
  dsimp only
  rw [if_neg hquote, if_neg hnumber, if_pos hc, htake, hdrop, htext]
  rfl

/-- The value of a literal is what the digits denote, cut to a word. -/
theorem literalVal_digits {v : Int} {p : List UInt8} (h : ∀ c ∈ p, isDigit c = true) :
    literalVal v p = (accDigits v p).1 := by
  induction p generalizing v with
  | nil => rfl
  | cons c p ih =>
    have hc := h c List.mem_cons_self
    have hval : ((c.toNat : Int) - 48) = (digitVal c : Int) := by
      have := (isDigit_iff c).mp hc
      unfold digitVal
      omega
    unfold accDigits
    rw [if_pos hc, ← ih fun d hd => h d (List.mem_cons_of_mem _ hd), ← hval]
    rfl

theorem literalVal_numeral (n : Nat) : literalVal 0 (numeral n) = wrap 64 n := by
  have htake : (numeral n).takeWhile isDigit = numeral n :=
    List.takeWhile_eq_self_iff.mpr (numeral_isDigit n)
  rw [literalVal_digits (numeral_isDigit n), accDigits_zero, htake, value_numeral]

/-- The lexer reads the value back, the least one included. -/
theorem intVal_fmtLld {v : Int} (hlo : -2 ^ 63 ≤ v) (hhi : v < 2 ^ 63) :
    intVal (fmtLld v) = v := by
  unfold fmtLld signed
  by_cases hneg : v < 0
  · have hval : wrap 64 (-wrap 64 (v.natAbs : Int)) = wrap 64 (-(v.natAbs : Int)) :=
      Int.bmod_neg_bmod
    rw [if_pos hneg]
    have hminus : intVal (45 :: numeral v.natAbs) = wrap 64 (-literalVal 0 (numeral v.natAbs)) := rfl
    rw [hminus, literalVal_numeral, hval, show -(v.natAbs : Int) = v by omega]
    exact wrap_of_mem (by decide) hlo hhi
  · rw [if_neg hneg]
    have hval : intVal (numeral v.natAbs) = literalVal 0 (numeral v.natAbs) := by
      cases hcs : numeral v.natAbs with
      | nil => rfl
      | cons c cs =>
        have hdigit : isDigit c = true := numeral_head (by rw [hcs]; rfl)
        unfold intVal
        split
        · rename_i heq
          exact absurd (List.cons.inj heq).1 (isDigit_other c hdigit).2.1
        · rfl
    rw [hval, literalVal_numeral, show (v.natAbs : Int) = v by omega]
    exact wrap_of_mem (by decide) hlo hhi

/-- Numbers. -/
theorem lexer_read_number {c : UInt8} {cs : List UInt8} {s : CString} (hs : s.bytes = c :: cs)
    (hc : isDigit c = true ∨ c = 45 ∧ cs ≠ []) (hcs : ∀ d ∈ cs, isDigit d = true)
    (hlen : s.bytes.length < KDS_PARSER_VAL_MAX) :
    Lexeme s.bytes ⟨.int_lit, s, intVal s.bytes⟩ := by
  refine ⟨by simp, fun rest hglue => ?_⟩
  have hend : ∀ d, rest.head? = some d → isDigit d = false := by
    intro d hd
    cases rest with
    | nil => cases hd
    | cons e rest =>
      obtain rfl := Option.some.inj hd
      by_contra hdigit
      rw [Bool.not_eq_false] at hdigit
      rw [hs] at hglue
      rcases hc with hc | ⟨rfl, _⟩
      · simp [glues, hc, hdigit] at hglue
      · simp [glues, hdigit] at hglue
  obtain ⟨htake, hdrop⟩ := span_run hcs hend
  have hother : c ≠ 39 ∧ isspace c = false := by
    rcases hc with hc | ⟨rfl, _⟩
    · exact ⟨(isDigit_other c hc).1, (isDigit_other c hc).2.2⟩
    · decide
  have hnumber : (isDigit c || (c == 45 && isDigit ((cs ++ rest).headD 0))) = true := by
    rcases hc with hc | ⟨rfl, hne⟩
    · rw [hc]
      rfl
    · cases cs with
      | nil => exact absurd rfl hne
      | cons d cs => simp [hcs d List.mem_cons_self]
  have hskip : lexer_skip_ws (s.bytes ++ rest) = c :: (cs ++ rest) := by
    rw [hs, List.cons_append]
    apply lexer_skip_ws_token hother.2
    rintro rfl hhead
    rcases hc with hc | ⟨_, hne⟩
    · exact absurd hc (by decide)
    · cases cs with
      | nil => exact hne rfl
      | cons d cs =>
        -- a second minus would be a comment
        obtain rfl := Option.some.inj hhead
        exact absurd (hcs 45 List.mem_cons_self) (by decide)
  have htext : tokText (c :: cs) = s := tokText_eq hs.symm (by rw [← hs]; exact hlen)
  unfold lexer_read
  rw [hskip]
  dsimp only
  rw [if_neg hother.1, if_pos hnumber, htake, hdrop, htext]

theorem lexeme_int {v : Int} (hlo : -2 ^ 63 ≤ v) (hhi : v < 2 ^ 63) :
    ∃ tok, Lexeme (fmtLld v) tok ∧ tok.type = .int_lit ∧ tok.int_val = v := by
  have hdigits := numeral_isDigit v.natAbs
  have hshort : (numeral v.natAbs).length ≤ 20 := length_numeral_le (by decide) (by omega)
  have hval := intVal_fmtLld hlo hhi
  have hnul : (0 : UInt8) ∉ numeral v.natAbs := fun h => absurd (hdigits 0 h) (by decide)
  by_cases hneg : v < 0
  · have htext : fmtLld v = 45 :: numeral v.natAbs := by
      unfold fmtLld signed
      rw [if_pos hneg]
    have hs : (0 : UInt8) ∉ fmtLld v := by
      rw [htext]
      simpa using hnul
    refine ⟨_, @lexer_read_number 45 _ ⟨fmtLld v, hs⟩ htext (.inr ⟨rfl, numeral_ne_nil _⟩) hdigits ?_,
      rfl, hval⟩
    dsimp only
    rw [htext, List.length_cons]
    simp only [KDS_PARSER_VAL_MAX]
    omega
  · have htext : fmtLld v = numeral v.natAbs := by
      unfold fmtLld signed
      rw [if_neg hneg]
    have hs : (0 : UInt8) ∉ fmtLld v := by
      rw [htext]
      exact hnul
    cases hcs : numeral v.natAbs with
    | nil => exact absurd hcs (numeral_ne_nil _)
    | cons c cs =>
      rw [hcs] at hdigits
      refine ⟨_, @lexer_read_number c cs ⟨fmtLld v, hs⟩ (htext.trans hcs)
        (.inl (hdigits c List.mem_cons_self)) (fun d hd => hdigits d (List.mem_cons_of_mem _ hd)) ?_,
        rfl, hval⟩
      dsimp only
      rw [htext]
      simp only [KDS_PARSER_VAL_MAX]
      omega

/-- Strings. -/
theorem lexeme_str {s : CString} (h : IsLiteral s) :
    Lexeme (39 :: (s.bytes ++ [39])) ⟨.str_lit, s, 0⟩ := by
  refine ⟨by simp, fun rest _ => ?_⟩
  have hrun : ∀ c ∈ s.bytes, (c != 39) = true := by
    intro c hc
    simp only [bne_iff_ne, ne_eq]
    rintro rfl
    exact h.no_quote hc
  obtain ⟨htake, hdrop⟩ := @span_run (· != 39) s.bytes (39 :: rest) hrun (by simp)
  have hskip : lexer_skip_ws (39 :: (s.bytes ++ [39]) ++ rest) = 39 :: (s.bytes ++ 39 :: rest) := by
    rw [List.cons_append, List.append_assoc]
    exact lexer_skip_ws_token (by decide) fun h => absurd h (by decide)
  have htext : tokText s.bytes = s := tokText_eq rfl h.short
  unfold lexer_read
  rw [hskip]
  dsimp only
  rw [if_pos rfl, htake, hdrop, htext]
  rfl

/-- Tokens of one character. -/
theorem lexeme_single (c : UInt8) (hc : c ∈ [40, 41, 44, 59, 42, 61, 60, 62]) :
    Lexeme [c] ⟨singleType c, tokText [c], 0⟩ := by
  refine ⟨singleType_ne_eof c, fun rest hglue => ?_⟩
  have hother : c ≠ 39 ∧ isDigit c = false ∧ c ≠ 45 ∧ isWordStart c = false ∧ c ≠ 33 ∧
      isspace c = false := by
    clear hglue
    revert c
    decide +kernel
  obtain ⟨hquote, hdigit, hminus, hword, hbang, hspace⟩ := hother
  have hnumber : ¬ (isDigit c || (c == 45 && isDigit (rest.headD 0))) = true := by
    simp [hdigit, hminus]
  have hsecond : c = 60 ∨ c = 62 → rest.headD 0 ≠ 61 := by
    intro hop hhead
    cases rest with
    | nil => exact absurd hhead (by decide)
    | cons d rest =>
      obtain rfl : d = 61 := hhead
      rcases hop with rfl | rfl <;> simp [glues] at hglue
  have hskip : lexer_skip_ws ([c] ++ rest) = c :: rest :=
    lexer_skip_ws_token hspace fun h => (hminus h).elim
  unfold lexer_read
  rw [hskip]
  dsimp only
  rw [if_neg hquote, if_neg hnumber, if_neg (by simp [hword]), if_neg (fun h => hbang h.1),
    if_neg (fun h => hsecond (.inl h.1) h.2), if_neg (fun h => hsecond (.inr h.1) h.2)]

/-- Operators of two characters. -/
theorem lexeme_pair {c : UInt8} {type : KdsTokenType}
    (h : (c, type) ∈ [(33, KdsTokenType.neq), (60, .lte), (62, .gte)]) :
    Lexeme [c, 61] ⟨type, tokText [c, 61], 0⟩ := by
  simp only [List.mem_cons, List.not_mem_nil, or_false, Prod.mk.injEq] at h
  have hskip : ∀ rest, isspace c = false → c ≠ 45 →
      lexer_skip_ws ([c, 61] ++ rest) = c :: 61 :: rest := fun rest hspace hminus =>
    lexer_skip_ws_token hspace fun h => (hminus h).elim
  rcases h with ⟨rfl, rfl⟩ | ⟨rfl, rfl⟩ | ⟨rfl, rfl⟩
  all_goals
    refine ⟨by simp, fun rest _ => ?_⟩
    unfold lexer_read
    rw [hskip rest (by decide) (by decide)]
    rfl

/-! ## Section 6: Lexing statements -/

theorem spelled_letter (c : UInt8) : isAsciiLetter (tolower c) = true →
    isWordStart c = true ∧ c ≠ 0 := by
  revert c
  exact forall_char (by decide +kernel)

theorem tolower_letter (c : UInt8) : isAsciiLetter c = true → isAsciiLetter (tolower c) = true := by
  revert c
  exact forall_char (by decide +kernel)

/-- A keyword in some case is a word. -/
theorem lexeme_spelled {keyword : CString} {text : List UInt8} (h : Spells keyword text)
    (hletters : ∀ c ∈ keyword.bytes, isAsciiLetter c) (hne : keyword.bytes ≠ [])
    (hshort : keyword.bytes.length < KDS_PARSER_VAL_MAX) :
    ∃ s : CString, s.bytes = text ∧
      Lexeme text ⟨if strcaseEq s kwNULL then .null else .ident, s, 0⟩ := by
  have hchars : ∀ c ∈ text, isWordStart c = true ∧ c ≠ 0 := by
    intro c hc
    apply spelled_letter
    have hmem := List.mem_map_of_mem (f := tolower) hc
    rw [h] at hmem
    obtain ⟨d, hd, heq⟩ := List.mem_map.mp hmem
    rw [← heq]
    exact tolower_letter d (hletters d hd)
  have hlen : text.length = keyword.bytes.length := by
    have := congrArg List.length h
    simpa using this
  cases text with
  | nil => exact absurd (List.length_eq_zero_iff.mp hlen.symm) hne
  | cons c cs =>
    have hnul : (0 : UInt8) ∉ c :: cs := fun h => (hchars 0 h).2 rfl
    refine ⟨⟨c :: cs, hnul⟩, rfl, ?_⟩
    apply @lexer_read_word c cs ⟨c :: cs, hnul⟩ rfl (hchars c List.mem_cons_self).1
    · intro d hd
      exact (isWordStart_other d (hchars d (List.mem_cons_of_mem _ hd)).1).2.2.2.2
    · rw [hlen]
      exact hshort

theorem strcaseEq_iff {s t : CString} : strcaseEq s t = true ↔ Spells t s.bytes := by
  unfold strcaseEq Spells
  rw [beq_iff_eq]

/-- The keywords of statements. -/
structure IsSqlKeyword (keyword : CString) : Prop where
  letters : ∀ c ∈ keyword.bytes, isAsciiLetter c
  ne_nil : keyword.bytes ≠ []
  short : keyword.bytes.length < KDS_PARSER_VAL_MAX
  not_null : keyword.bytes.map tolower ≠ kwNULL.bytes.map tolower

theorem lexeme_keyword {keyword : CString} {text : List UInt8} (hk : IsSqlKeyword keyword)
    (h : Spells keyword text) : ∃ tok, Lexeme text tok ∧ isKeyword keyword tok := by
  obtain ⟨s, rfl, hlex⟩ := lexeme_spelled h hk.letters hk.ne_nil hk.short
  have hnull : ¬ strcaseEq s kwNULL = true := by
    rw [strcaseEq_iff]
    exact fun hs => hk.not_null (h.symm.trans hs)
  rw [if_neg hnull] at hlex
  exact ⟨_, hlex, rfl, strcaseEq_iff.mpr h⟩

theorem lexeme_null {text : List UInt8} (h : Spells kwNULL text) :
    ∃ tok, Lexeme text tok ∧ tok.type = .null := by
  obtain ⟨s, rfl, hlex⟩ := lexeme_spelled h (by decide) (by decide) (by decide)
  rw [if_pos (strcaseEq_iff.mpr h)] at hlex
  exact ⟨_, hlex, rfl⟩

theorem identStart_word (c : UInt8) : isIdentStart c = true → isWordStart c = true := by
  revert c
  exact forall_char (by decide +kernel)

theorem identChar_word (c : UInt8) : isIdentChar c = true → isWordChar c = true := by
  revert c
  exact forall_char (by decide +kernel)

/-- What fits an array is copied whole. -/
theorem strncpyTo_eq {n : Nat} {s : CString} (h : s.bytes.length < n) : strncpyTo n s = s := by
  unfold strncpyTo
  rw [List.take_of_length_le (by omega)]
  exact CString.ext' (CString.ofBuffer_bytes s.no_nul)

theorem lexeme_name {name : CString} (h : IsIdent name) :
    ∃ tok, Lexeme name.bytes tok ∧ IsName tok name := by
  obtain ⟨c, cs, hname, hc⟩ := h.start
  have hshort := h.short
  simp only [KDS_PARSER_NAME_MAX] at hshort
  have hlex := lexer_read_word hname (identStart_word c hc)
    (fun d hd => identChar_word d (h.chars d (by rw [hname]; exact List.mem_cons_of_mem _ hd)))
    (by simp only [KDS_PARSER_VAL_MAX]; omega)
  have hnull : ¬ strcaseEq name kwNULL = true := by
    rw [strcaseEq_iff]
    exact h.not_null
  rw [if_neg hnull] at hlex
  refine ⟨_, hlex, isName_iff.mpr ⟨rfl, ?_⟩⟩
  exact (strncpyTo_eq h.short).symm

theorem lexeme_value {text : List UInt8} {val : KdsAstVal} (h : PrintedValue text val) :
    ∃ tok, Lexeme text tok ∧ IsValue tok val := by
  cases h with
  | int hlo hhi =>
    obtain ⟨tok, hlex, htype, rfl⟩ := lexeme_int hlo hhi
    exact ⟨tok, hlex, .int htype⟩
  | @str s hs =>
    refine ⟨_, lexeme_str hs, ?_⟩
    have hval := @IsValue.str ⟨.str_lit, s, 0⟩ rfl
    rwa [strncpyTo_eq hs.short] at hval
  | null h =>
    obtain ⟨tok, hlex, htype⟩ := lexeme_null h
    exact ⟨tok, hlex, .null htype⟩

theorem lexeme_cond_op (op : KdsCondOp) :
    ∃ tok, Lexeme (kds_cond_op_name op) tok ∧ tok.type = op.tokenType := by
  cases op with
  | eq => exact ⟨_, lexeme_single 61 (by decide), rfl⟩
  | neq => exact ⟨_, @lexeme_pair 33 .neq (by decide), rfl⟩
  | lt => exact ⟨_, lexeme_single 60 (by decide), rfl⟩
  | lte => exact ⟨_, @lexeme_pair 60 .lte (by decide), rfl⟩
  | gt => exact ⟨_, lexeme_single 62 (by decide), rfl⟩
  | gte => exact ⟨_, @lexeme_pair 62 .gte (by decide), rfl⟩

/-- A type is found by its name. -/
theorem kds_type_lookup_by_name_mem {desc : KdsTypeDesc} (h : desc ∈ kds_type_table) {s : CString}
    (hs : s.bytes = desc.name) : kds_type_lookup_by_name s = some desc := by
  have hfind : ∀ l : List KdsTypeDesc, (l.map KdsTypeDesc.name).Nodup → desc ∈ l →
      l.find? (fun d => d.name = s.bytes) = some desc := by
    intro l
    induction l with
    | nil => simp
    | cons d l ih =>
      intro hnodup hmem
      obtain ⟨hnot, hnodup⟩ := List.nodup_cons.mp hnodup
      rcases List.mem_cons.mp hmem with rfl | hmem
      · exact List.find?_cons_of_pos (by simp [hs])
      · have hne : d.name ≠ s.bytes := by
          intro heq
          apply hnot
          rw [heq, hs]
          exact List.mem_map_of_mem hmem
        rw [List.find?_cons_of_neg (by simpa using hne)]
        exact ih hnodup hmem
  exact hfind kds_type_table (by decide) h

theorem lexeme_type {desc : KdsTypeDesc} (h : desc ∈ kds_type_table) :
    ∃ tok, Lexeme desc.name tok ∧ tok.type = .ident ∧
      kds_type_lookup_by_name tok.text = some desc := by
  have hnames : ∀ d ∈ kds_type_table, d.name ≠ [] ∧ isWordStart (d.name.headD 0) = true ∧
      (∀ c ∈ d.name, isWordChar c = true) ∧ (0 : UInt8) ∉ d.name ∧ d.name.length < KDS_PARSER_VAL_MAX ∧
      d.name.map tolower ≠ kwNULL.bytes.map tolower := by
    intro d hd
    revert d
    decide +kernel
  obtain ⟨hne, hstart, hchars, hnul, hshort, hnull⟩ := hnames desc h
  cases hname : desc.name with
  | nil => exact absurd hname hne
  | cons c cs =>
    rw [hname] at hstart hchars
    have hlex := @lexer_read_word c cs ⟨desc.name, hnul⟩ hname hstart
      (fun d hd => hchars d (List.mem_cons_of_mem _ hd)) hshort
    have hnull' : ¬ strcaseEq ⟨desc.name, hnul⟩ kwNULL = true := by
      rw [strcaseEq_iff]
      exact hnull
    rw [if_neg hnull'] at hlex
    rw [← hname]
    exact ⟨_, hlex, rfl, kds_type_lookup_by_name_mem h rfl⟩

theorem sepList_lexemes {α : Type} {sepText : List UInt8 → Prop} {sep : KdsToken → Prop}
    {P : List (List UInt8) → α → Prop} {D : List KdsToken → α → Prop}
    (hsep : ∀ text, sepText text → ∃ tok, Lexeme text tok ∧ sep tok)
    (hD : ∀ texts a, P texts a → ∃ toks, List.Forall₂ Lexeme texts toks ∧ D toks a)
    {texts : List (List UInt8)} {as : List α} (h : SepList sepText P texts as) :
    ∃ toks, List.Forall₂ Lexeme texts toks ∧ SepList sep D toks as := by
  induction h with
  | one hP =>
    obtain ⟨toks, hlex, hD⟩ := hD _ _ hP
    exact ⟨toks, hlex, .one hD⟩
  | cons hP ht _ ih =>
    obtain ⟨toks, hlex, hD⟩ := hD _ _ hP
    obtain ⟨tok, htok, hsep⟩ := hsep _ ht
    obtain ⟨toks', hlex', hlist⟩ := ih
    exact ⟨_, List.rel_append hlex (.cons htok hlex'), .cons hD hsep hlist⟩

theorem column_lexemes (texts : List (List UInt8)) (col : KdsAstColDef)
    (h : PrintedColumn texts col) : ∃ toks, List.Forall₂ Lexeme texts toks ∧ Column toks col := by
  obtain ⟨hname, hdesc⟩ := h
  obtain ⟨tok, hlex, hname⟩ := lexeme_name hname
  obtain ⟨type, hlex', htype, hlookup⟩ := lexeme_type hdesc
  exact ⟨_, .cons hlex (.cons hlex' .nil), .mk hname htype hlookup⟩

theorem value_lexemes (texts : List (List UInt8)) (val : KdsAstVal)
    (h : One PrintedValue texts val) :
    ∃ toks, List.Forall₂ Lexeme texts toks ∧ One IsValue toks val := by
  obtain ⟨text, rfl, hval⟩ := h
  obtain ⟨tok, hlex, hval⟩ := lexeme_value hval
  exact ⟨_, .cons hlex .nil, tok, rfl, hval⟩

theorem cond_lexemes (texts : List (List UInt8)) (cond : KdsAstCond) (h : PrintedCond texts cond) :
    ∃ toks, List.Forall₂ Lexeme texts toks ∧ Cond toks cond := by
  obtain ⟨hname, hval⟩ := h
  obtain ⟨tok, hlex, hname⟩ := lexeme_name hname
  obtain ⟨op, hlex', hop⟩ := lexeme_cond_op _
  obtain ⟨val, hlex'', hval⟩ := lexeme_value hval
  exact ⟨_, .cons hlex (.cons hlex' (.cons hlex'' .nil)), .mk hname hop hval⟩

theorem comma_lexeme (text : List UInt8) (h : PrintedComma text) :
    ∃ tok, Lexeme text tok ∧ IsComma tok := by
  obtain rfl := h
  exact ⟨_, lexeme_single 44 (by decide), rfl⟩

theorem storage_lexemes {texts : List (List UInt8)} {clustered : ClusteredType}
    (h : PrintedStorage texts clustered) :
    ∃ toks, List.Forall₂ Lexeme texts toks ∧ Storage toks clustered := by
  cases h with
  | none => exact ⟨[], .nil, .none⟩
  | heap h =>
    obtain ⟨tok, hlex, htok⟩ := lexeme_keyword ⟨by decide, by decide, by decide, by decide⟩ h
    exact ⟨_, .cons hlex .nil, .heap htok⟩
  | btree h =>
    obtain ⟨tok, hlex, htok⟩ := lexeme_keyword ⟨by decide, by decide, by decide, by decide⟩ h
    exact ⟨_, .cons hlex .nil, .btree htok⟩

theorem where_lexemes {texts : List (List UInt8)} {clause : Bool × List KdsAstCond}
    (h : PrintedWhere texts clause) :
    ∃ toks, List.Forall₂ Lexeme texts toks ∧ Where toks clause := by
  cases h with
  | none => exact ⟨[], .nil, .none⟩
  | conds h hlist hlen =>
    obtain ⟨tok, hlex, htok⟩ := lexeme_keyword ⟨by decide, by decide, by decide, by decide⟩ h
    have hand : ∀ text, Spells kwAND text → ∃ tok, Lexeme text tok ∧ isKeyword kwAND tok :=
      fun _ => lexeme_keyword ⟨by decide, by decide, by decide, by decide⟩
    obtain ⟨toks, hlex', hlist⟩ := sepList_lexemes hand cond_lexemes hlist
    exact ⟨_, .cons hlex hlex', .conds htok hlist hlen⟩

theorem semicolon_lexemes {texts : List (List UInt8)} (h : PrintedSemicolon texts) :
    ∃ toks, List.Forall₂ Lexeme texts toks ∧ Semicolon toks := by
  cases h with
  | none => exact ⟨[], .nil, .none⟩
  | some => exact ⟨_, .cons (lexeme_single 59 (by decide)) .nil, .some rfl⟩

/-- **The texts of a statement** are read as a phrase for it. -/
theorem stmt_lexemes {texts : List (List UInt8)} {stmt : KdsStmt} (h : PrintedStmt texts stmt) :
    ∃ toks, List.Forall₂ Lexeme texts toks ∧ Statement toks stmt := by
  -- every keyword of a statement is one
  have hkw : ∀ keyword ∈ [kwCREATE, kwTABLE, kwINSERT, kwINTO, kwVALUES, kwSELECT, kwFROM, kwSHOW,
      kwMETA, kwALLOC], ∀ text, Spells keyword text → ∃ tok, Lexeme text tok ∧ isKeyword keyword tok := by
    intro keyword hmem text
    have hk : IsSqlKeyword keyword := by
      simp only [List.mem_cons, List.not_mem_nil, or_false] at hmem
      rcases hmem with rfl | rfl | rfl | rfl | rfl | rfl | rfl | rfl | rfl | rfl
      all_goals exact ⟨by decide, by decide, by decide, by decide⟩
    exact lexeme_keyword hk
  have hlparen := lexeme_single 40 (by decide)
  have hrparen := lexeme_single 41 (by decide)
  cases h with
  | create_table hcreate htable hname hlist hlen hstorage hsemi =>
    obtain ⟨create, hlex₁, hcreate⟩ := hkw kwCREATE (by simp) _ hcreate
    obtain ⟨table, hlex₂, htable⟩ := hkw kwTABLE (by simp) _ htable
    obtain ⟨tok, hlex₃, hname⟩ := lexeme_name hname
    obtain ⟨toks, hlex₄, hlist⟩ := sepList_lexemes comma_lexeme column_lexemes hlist
    obtain ⟨storage, hlex₅, hstorage⟩ := storage_lexemes hstorage
    obtain ⟨semi, hlex₆, hsemi⟩ := semicolon_lexemes hsemi
    refine ⟨_, .cons hlex₁ (.cons hlex₂ (.cons hlex₃ (.cons hlparen
      (List.rel_append hlex₄ (.cons hrparen (List.rel_append hlex₅ hlex₆)))))), ?_⟩
    exact .create_table hcreate (.mk htable hname rfl hlist hlen rfl hstorage hsemi)
  | insert hinsert hinto hname hvalues hlist hlen hsemi =>
    obtain ⟨insert, hlex₁, hinsert⟩ := hkw kwINSERT (by simp) _ hinsert
    obtain ⟨into, hlex₂, hinto⟩ := hkw kwINTO (by simp) _ hinto
    obtain ⟨tok, hlex₃, hname⟩ := lexeme_name hname
    obtain ⟨values, hlex₄, hvalues⟩ := hkw kwVALUES (by simp) _ hvalues
    obtain ⟨toks, hlex₅, hlist⟩ := sepList_lexemes comma_lexeme value_lexemes hlist
    obtain ⟨semi, hlex₆, hsemi⟩ := semicolon_lexemes hsemi
    refine ⟨_, .cons hlex₁ (.cons hlex₂ (.cons hlex₃ (.cons hlex₄ (.cons hlparen
      (List.rel_append hlex₅ (.cons hrparen hlex₆)))))), ?_⟩
    exact .insert hinsert (.mk hinto hname hvalues rfl hlist hlen rfl hsemi)
  | select hselect hfrom hname hwhere hsemi =>
    obtain ⟨select, hlex₁, hselect⟩ := hkw kwSELECT (by simp) _ hselect
    obtain ⟨source, hlex₂, hfrom⟩ := hkw kwFROM (by simp) _ hfrom
    obtain ⟨tok, hlex₃, hname⟩ := lexeme_name hname
    obtain ⟨toks, hlex₄, hwhere⟩ := where_lexemes hwhere
    obtain ⟨semi, hlex₅, hsemi⟩ := semicolon_lexemes hsemi
    refine ⟨_, .cons hlex₁ (.cons (lexeme_single 42 (by decide)) (.cons hlex₂ (.cons hlex₃
      (List.rel_append hlex₄ hlex₅)))), ?_⟩
    exact .select hselect (.mk rfl hfrom hname hwhere hsemi)
  | show_meta hshow hmeta hsemi =>
    obtain ⟨show_, hlex₁, hshow⟩ := hkw kwSHOW (by simp) _ hshow
    obtain ⟨target, hlex₂, hmeta⟩ := hkw kwMETA (by simp) _ hmeta
    obtain ⟨semi, hlex₃, hsemi⟩ := semicolon_lexemes hsemi
    exact ⟨_, .cons hlex₁ (.cons hlex₂ hlex₃), .show_ hshow (.meta_ hmeta hsemi)⟩
  | show_alloc hshow halloc hsemi =>
    obtain ⟨show_, hlex₁, hshow⟩ := hkw kwSHOW (by simp) _ hshow
    obtain ⟨target, hlex₂, halloc⟩ := hkw kwALLOC (by simp) _ halloc
    obtain ⟨semi, hlex₃, hsemi⟩ := semicolon_lexemes hsemi
    exact ⟨_, .cons hlex₁ (.cons hlex₂ hlex₃), .show_ hshow (.alloc halloc hsemi)⟩

/-! ## Section 7: Printing and parsing -/

/-- **Printing, then parsing**: whatever way a statement is printed, the parser returns it. -/
theorem kds_parse_printed {texts : List (List UInt8)} {stmt : KdsStmt} {sql : CString}
    (hstmt : PrintedStmt texts stmt) (hsql : Rendered texts sql.bytes) (err_buf_size : Nat) :
    kds_parse sql err_buf_size = (.ok stmt, CString.ofBuffer []) := by
  obtain ⟨toks, hlex, hphrase⟩ := stmt_lexemes hstmt
  rw [← hsql.lexTokens hlex] at hphrase
  obtain ⟨l, hparse⟩ := (parseSql_iff sql stmt).mpr hphrase
  unfold kds_parse
  rw [hparse]

/-- A statement with the least integer, and a string that looks like a comment. -/
def selectLeast : KdsStmtSelect where
  table_name := ⟨ascii "t", by decide⟩
  has_where := true
  conds :=
    [ ⟨⟨ascii "a", by decide⟩, .gte, .int (-9223372036854775808)⟩,
      ⟨⟨ascii "b", by decide⟩, .eq, .str ⟨ascii "--", by decide⟩⟩ ]

/-- It is printed with a comment behind the integer. -/
def selectText : CString :=
  ⟨ascii "Select*FROM t wHERE a>=-9223372036854775808--least" ++ 10 :: ascii "AND b='--';",
    by decide +kernel⟩

theorem isIdent_letter (name : CString) (c : UInt8) (h : name.bytes = [c])
    (hc : isAsciiLetter c = true) : IsIdent name := by
  refine ⟨⟨c, [], h, ?_⟩, ?_, ?_, ?_⟩
  · simp [isIdentStart, hc]
  · simp [h, isIdentChar, isIdentStart, hc]
  · simp [h]
  · rw [h]
    intro hnull
    exact absurd (congrArg List.length hnull) (by simp [kwNULL, ascii])

theorem Rendered.next (sep text : List UInt8) {rest : List UInt8} {texts : List (List UInt8)}
    (hsep : Blank sep) (hglue : glues text rest = false) (h : Rendered texts rest) :
    Rendered (text :: texts) (sep ++ (text ++ rest)) := .cons hsep hglue h

theorem kds_parse_printed_select :
    kds_parse selectText 256 = (.ok (.select selectLeast), CString.ofBuffer []) := by
  have hfirst := @PrintedCond.mk ⟨ascii "a", by decide⟩ .gte _ _
    (isIdent_letter _ 97 (by decide) (by decide))
    (@PrintedValue.int (-9223372036854775808) (by decide) (by decide))
  have hsecond := @PrintedCond.mk ⟨ascii "b", by decide⟩ .eq _ _
    (isIdent_letter _ 98 (by decide) (by decide))
    (@PrintedValue.str ⟨ascii "--", by decide⟩ ⟨by decide, by decide⟩)
  have hconds := SepList.cons hfirst (by decide : Spells kwAND (ascii "AND")) (.one hsecond)
  have hwhere := PrintedWhere.conds (by decide : Spells kwWHERE (ascii "wHERE")) hconds (by decide)
  have hstmt := @PrintedStmt.select (ascii "Select") (ascii "FROM") _ _ ⟨ascii "t", by decide⟩ _ _
    (by decide) (by decide) (isIdent_letter _ 116 (by decide) (by decide)) hwhere .some
  have hspace : Blank [32] := .space (by decide) .nil
  have hcomment : Blank (45 :: 45 :: (ascii "least" ++ [10])) := .comment (by decide) .nil
  have hrender :=
    Rendered.next [] (ascii "Select") .nil (by decide +kernel) <|
    Rendered.next [] [42] .nil (by decide +kernel) <|
    Rendered.next [] (ascii "FROM") .nil (by decide +kernel) <|
    Rendered.next [32] (ascii "t") hspace (by decide +kernel) <|
    Rendered.next [32] (ascii "wHERE") hspace (by decide +kernel) <|
    Rendered.next [32] (ascii "a") hspace (by decide +kernel) <|
    Rendered.next [] [62, 61] .nil (by decide +kernel) <|
    Rendered.next [] (fmtLld (-9223372036854775808)) .nil (by decide +kernel) <|
    Rendered.next _ (ascii "AND") hcomment (by decide +kernel) <|
    Rendered.next [32] (ascii "b") hspace (by decide +kernel) <|
    Rendered.next [] [61] .nil (by decide +kernel) <|
    Rendered.next [] (39 :: (ascii "--" ++ [39])) .nil (by decide +kernel) <|
    Rendered.next [] [59] .nil (by decide +kernel) <|
    Rendered.nil .nil
  apply kds_parse_printed hstmt
  refine (congrArg (Rendered _) ?_).mp hrender
  decide +kernel

end Kds
