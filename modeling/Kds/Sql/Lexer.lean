import Kds.Types

/-! # The lexer

    `lexer_skip_ws` and `lexer_read` of `parser.c`, and the buffer for one
    token of lookahead. `isspace`, `isalpha`, `isalnum` and `tolower` are the
    kernel's, which know Latin-1.
-/

open Bytes Decimal

namespace Kds

/-! ## Section 1: Characters -/

def isspace (c : UInt8) : Bool := (decide (9 ≤ c) && decide (c ≤ 13)) || c == 32 || c == 160

def isupper (c : UInt8) : Bool :=
  (decide (65 ≤ c) && decide (c ≤ 90)) || (decide (192 ≤ c) && decide (c ≤ 222) && c != 215)

def islower (c : UInt8) : Bool :=
  (decide (97 ≤ c) && decide (c ≤ 122)) || (decide (223 ≤ c) && c != 247)

def isalpha (c : UInt8) : Bool := isupper c || islower c

def isalnum (c : UInt8) : Bool := isalpha c || isDigit c

def tolower (c : UInt8) : UInt8 := if isupper c then c + 32 else c

/-- `strcasecmp(s, t) == 0`. -/
def strcaseEq (s t : CString) : Bool := s.bytes.map tolower == t.bytes.map tolower

/-- A character of an identifier behind the first. -/
def isWordChar (c : UInt8) : Bool := isalnum c || c == 95

/-- The first character of an identifier. -/
def isWordStart (c : UInt8) : Bool := isalpha c || c == 95

/-! ## Section 2: Tokens -/

abbrev KDS_PARSER_VAL_MAX : Nat := 256

/-- `kds_token_type_t`. -/
inductive KdsTokenType where
  | eof
  | ident
  | int_lit
  | str_lit
  | null
  | lparen
  | rparen
  | comma
  | semicolon
  | star
  | eq
  | neq
  | lt
  | lte
  | gt
  | gte
  | error
  deriving DecidableEq, Repr

/-- `kds_token_t`. -/
structure KdsToken where
  type : KdsTokenType
  text : CString
  int_val : Int

/-- What fits `tok->text`. -/
def tokText (bs : List UInt8) : CString := CString.ofBuffer (bs.take (KDS_PARSER_VAL_MAX - 1))

def eofToken : KdsToken := ⟨.eof, tokText [], 0⟩

/-- The loop over the digits of an integer literal. -/
def literalVal (v : Int) (p : List UInt8) : Int :=
  p.foldl (fun v c => wrap 64 (wrap 64 (v * 10) + (c.toNat - 48))) v

/-- `tok->int_val` of an integer literal. -/
def intVal (text : List UInt8) : Int :=
  match text with
  | 45 :: p => wrap 64 (-literalVal 0 p)
  | p => literalVal 0 p

theorem length_dropWhile_le {α : Type} (p : α → Bool) (l : List α) :
    (l.dropWhile p).length ≤ l.length := (List.dropWhile_sublist p).length_le

theorem skip_comment_lt {pos rest : List UInt8} (h : pos.dropWhile isspace = 45 :: 45 :: rest) :
    (rest.dropWhile (· != 10)).length < pos.length := by
  have hspace := length_dropWhile_le isspace pos
  have hcomment := length_dropWhile_le (· != 10) rest
  rw [h] at hspace
  simp only [List.length_cons] at hspace
  omega

def lexer_skip_ws (pos : List UInt8) : List UInt8 :=
  match h : pos.dropWhile isspace with
  | 45 :: 45 :: rest =>
    have := skip_comment_lt h
    lexer_skip_ws (rest.dropWhile (· != 10))
  | rest => rest
termination_by pos.length

/-- A token of one character. -/
def singleType (c : UInt8) : KdsTokenType :=
  if c = 40 then .lparen
  else if c = 41 then .rparen
  else if c = 44 then .comma
  else if c = 59 then .semicolon
  else if c = 42 then .star
  else if c = 61 then .eq
  else if c = 60 then .lt
  else if c = 62 then .gt
  else .error

/-- `lexer_read`: the token, and the position behind it. -/
def lexer_read (pos : List UInt8) : KdsToken × List UInt8 :=
  match lexer_skip_ws pos with
  | [] => (eofToken, [])
  | c :: pos =>
    if c = 39 then
      -- a string that is not closed goes up to the end
      (⟨.str_lit, tokText (pos.takeWhile (· != 39)), 0⟩, (pos.dropWhile (· != 39)).drop 1)
    else if isDigit c || (c == 45 && isDigit (pos.headD 0)) then
      let text := tokText (c :: pos.takeWhile isDigit)
      (⟨.int_lit, text, intVal text.bytes⟩, pos.dropWhile isDigit)
    else if isWordStart c then
      let text := tokText (c :: pos.takeWhile isWordChar)
      let type := if strcaseEq text ⟨ascii "NULL", by decide⟩ then .null else .ident
      (⟨type, text, 0⟩, pos.dropWhile isWordChar)
    else if c = 33 ∧ pos.headD 0 = 61 then (⟨.neq, tokText [33, 61], 0⟩, pos.drop 1)
    else if c = 60 ∧ pos.headD 0 = 61 then (⟨.lte, tokText [60, 61], 0⟩, pos.drop 1)
    else if c = 62 ∧ pos.headD 0 = 61 then (⟨.gte, tokText [62, 61], 0⟩, pos.drop 1)
    else (⟨singleType c, tokText [c], 0⟩, pos)

/-! ## Section 3: All tokens -/

theorem lexer_skip_ws_comment {pos rest : List UInt8}
    (h : pos.dropWhile isspace = 45 :: 45 :: rest) :
    lexer_skip_ws pos = lexer_skip_ws (rest.dropWhile (· != 10)) := by
  rw [lexer_skip_ws]
  split
  · rename_i rest' h'
    rw [h] at h'
    obtain ⟨_, h'⟩ := List.cons.inj h'
    rw [(List.cons.inj h').2]
  · rename_i hno
    exact (hno rest h).elim

theorem lexer_skip_ws_stop {pos : List UInt8} (h : ∀ rest, pos.dropWhile isspace ≠ 45 :: 45 :: rest) :
    lexer_skip_ws pos = pos.dropWhile isspace := by
  rw [lexer_skip_ws]
  split
  · rename_i rest h'
    exact (h rest h').elim
  · rfl

theorem lexer_skip_ws_length (pos : List UInt8) : (lexer_skip_ws pos).length ≤ pos.length := by
  induction pos using lexer_skip_ws.induct with
  | case1 pos rest h _ ih =>
    rw [lexer_skip_ws_comment h]
    exact ih.trans (skip_comment_lt h).le
  | case2 pos hno =>
    rw [lexer_skip_ws_stop hno]
    exact length_dropWhile_le isspace pos

theorem singleType_ne_eof (c : UInt8) : singleType c ≠ .eof := by
  unfold singleType
  split_ifs <;> simp

/-- A single character is no word, no number and no string. -/
theorem singleType_other (c : UInt8) :
    singleType c ≠ .ident ∧ singleType c ≠ .int_lit ∧ singleType c ≠ .str_lit := by
  unfold singleType
  split_ifs <;> decide

/-- The end of the input is read from nothing but blanks, and every other token has a
    character. -/
theorem lexer_read_rest (pos : List UInt8) :
    lexer_read pos = (eofToken, []) ∨
      ((lexer_read pos).1.type ≠ .eof ∧ (lexer_read pos).2.length < pos.length) := by
  have hskip := lexer_skip_ws_length pos
  unfold lexer_read
  cases hpos : lexer_skip_ws pos with
  | nil => exact .inl rfl
  | cons c rest =>
    right
    rw [hpos, List.length_cons] at hskip
    have hstring := length_dropWhile_le (· != 39) rest
    have hdigits := length_dropWhile_le isDigit rest
    have hword := length_dropWhile_le isWordChar rest
    dsimp only
    split_ifs
    · refine ⟨by simp, ?_⟩
      rw [List.length_drop]
      omega
    · exact ⟨by simp, by dsimp only; omega⟩
    · exact ⟨by simp, by dsimp only; omega⟩
    · exact ⟨by simp, by dsimp only; omega⟩
    · exact ⟨by simp, by rw [List.length_drop]; omega⟩
    · exact ⟨by simp, by rw [List.length_drop]; omega⟩
    · exact ⟨by simp, by rw [List.length_drop]; omega⟩
    · exact ⟨singleType_ne_eof c, by dsimp only; omega⟩

theorem lexer_read_lt {pos : List UInt8} (h : (lexer_read pos).1.type ≠ .eof) :
    (lexer_read pos).2.length < pos.length := by
  rcases lexer_read_rest pos with heof | hread
  · rw [heof] at h
    exact absurd rfl h
  · exact hread.2

/-- The tokens of a text: `lexer_read` again and again, up to the end. -/
def lexTokens (pos : List UInt8) : List KdsToken :=
  if h : (lexer_read pos).1.type = .eof then []
  else
    have := lexer_read_lt h
    (lexer_read pos).1 :: lexTokens (lexer_read pos).2
termination_by pos.length

theorem lexTokens_nil {pos : List UInt8} (h : lexer_read pos = (eofToken, [])) :
    lexTokens pos = [] := by
  have htype : (lexer_read pos).1.type = .eof := by
    rw [h]
    rfl
  rw [lexTokens, dif_pos htype]

theorem lexTokens_cons {pos rest : List UInt8} {tok : KdsToken} (h : lexer_read pos = (tok, rest))
    (htok : tok.type ≠ .eof) : lexTokens pos = tok :: lexTokens rest := by
  have htype : ¬ (lexer_read pos).1.type = .eof := by
    rw [h]
    exact htok
  rw [lexTokens, dif_neg htype]
  dsimp only
  rw [h]

/-! ## Section 4: Lookahead -/

/-- `kds_lexer_t`; `peek` is the token in the buffer, if it holds one. -/
structure KdsLexer where
  pos : List UInt8
  peek : Option KdsToken
  /-- The end is looked at only once everything is read. -/
  peek_eof : ∀ tok, peek = some tok → tok.type = .eof → tok = eofToken ∧ pos = []

def lexer_init (sql : CString) : KdsLexer := ⟨sql.bytes, none, by simp⟩

def lexer_peek (l : KdsLexer) : KdsToken × KdsLexer :=
  match l.peek with
  | some tok => (tok, l)
  | none =>
    ((lexer_read l.pos).1,
      { pos := (lexer_read l.pos).2
        peek := some (lexer_read l.pos).1
        peek_eof := by
          intro tok htok heof
          obtain rfl := Option.some.inj htok
          rcases lexer_read_rest l.pos with h | h
          · rw [h]
            exact ⟨rfl, rfl⟩
          · exact absurd heof h.1 })

def lexer_next (l : KdsLexer) : KdsToken × KdsLexer :=
  match l.peek with
  | some tok => (tok, ⟨l.pos, none, by simp⟩)
  | none => ((lexer_read l.pos).1, ⟨(lexer_read l.pos).2, none, by simp⟩)

/-- The tokens that are still to come. -/
def KdsLexer.tokens (l : KdsLexer) : List KdsToken :=
  match l.peek with
  | none => lexTokens l.pos
  | some tok => if tok.type = .eof then [] else tok :: lexTokens l.pos

end Kds
