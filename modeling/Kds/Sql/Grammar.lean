import Kds.Sql.Parser

/-! # The grammar

    What `kds_parser.h` documents, as phrases of tokens and what they mean:

      CREATE TABLE name (col type, ...) [HEAP | BTREE]
      INSERT INTO name VALUES (val, ...)
      SELECT * FROM name [WHERE cond AND ...]
      SHOW META | SHOW ALLOC

    each with or without a semicolon behind it. Keywords may be in any case,
    and a keyword may be a name where a name is expected. The parser is shown
    to recognise these phrases, function by function.
-/

open Bytes Recognise

namespace Kds

/-! ## Section 1: Phrases -/

/-- A name: an identifier, cut to the array it is stored in. -/
inductive IsName : KdsToken → CString → Prop where
  | mk {tok : KdsToken} : tok.type = .ident → IsName tok (strncpyTo KDS_PARSER_NAME_MAX tok.text)

/-- `<val>`. -/
inductive IsValue : KdsToken → KdsAstVal → Prop where
  | int {tok : KdsToken} : tok.type = .int_lit → IsValue tok (.int tok.int_val)
  | str {tok : KdsToken} : tok.type = .str_lit →
      IsValue tok (.str (strncpyTo KDS_PARSER_VAL_MAX tok.text))
  | null {tok : KdsToken} : tok.type = .null → IsValue tok .null

/-- The tokens of the operators. -/
def KdsCondOp.tokenType : KdsCondOp → KdsTokenType
  | .eq => .eq
  | .neq => .neq
  | .lt => .lt
  | .lte => .lte
  | .gt => .gt
  | .gte => .gte

/-- `<col> <type>`. -/
inductive Column : List KdsToken → KdsAstColDef → Prop where
  | mk {col type : KdsToken} {name : CString} {desc : KdsTypeDesc} : IsName col name →
      type.type = .ident → kds_type_lookup_by_name type.text = some desc →
      Column [col, type] ⟨name, desc.type_val, desc.fixed_len⟩

/-- `<col> <op> <val>`. -/
inductive Cond : List KdsToken → KdsAstCond → Prop where
  | mk {col op val : KdsToken} {name : CString} {cond_op : KdsCondOp} {v : KdsAstVal} :
      IsName col name → op.type = cond_op.tokenType → IsValue val v →
      Cond [col, op, val] ⟨name, cond_op, v⟩

def IsComma (tok : KdsToken) : Prop := tok.type = .comma

/-- `[HEAP | BTREE]`. -/
inductive Storage : List KdsToken → ClusteredType → Prop where
  | none : Storage [] .heap
  | heap {tok : KdsToken} : isKeyword kwHEAP tok → Storage [tok] .heap
  | btree {tok : KdsToken} : isKeyword kwBTREE tok → Storage [tok] .btree

/-- `[WHERE <cond> [AND <cond>]*]`, with 16 conditions at most. -/
inductive Where : List KdsToken → Bool × List KdsAstCond → Prop where
  | none : Where [] (false, [])
  | conds {tok : KdsToken} {toks : List KdsToken} {conds : List KdsAstCond} :
      isKeyword kwWHERE tok → SepList (isKeyword kwAND) Cond toks conds →
      conds.length ≤ KDS_PARSER_MAX_CONDS → Where (tok :: toks) (true, conds)

/-- `[;]`. -/
inductive Semicolon : List KdsToken → Prop where
  | none : Semicolon []
  | some {tok : KdsToken} : tok.type = .semicolon → Semicolon [tok]

/-- `TABLE <name> (<col> <type> [, ...]) [HEAP | BTREE];`, with 32 columns at most. -/
inductive CreateTable : List KdsToken → KdsStmtCreateTable → Prop where
  | mk {table tok lparen rparen : KdsToken} {toks storage semi : List KdsToken} {name : CString}
      {cols : List KdsAstColDef} {clustered : ClusteredType} :
      isKeyword kwTABLE table → IsName tok name → lparen.type = .lparen →
      SepList IsComma Column toks cols → cols.length ≤ KDS_PARSER_MAX_COLS →
      rparen.type = .rparen → Storage storage clustered → Semicolon semi →
      CreateTable (table :: tok :: lparen :: (toks ++ rparen :: (storage ++ semi)))
        ⟨name, cols, clustered⟩

/-- `INTO <name> VALUES (<val> [, ...]);`, with 32 values at most. -/
inductive Insert : List KdsToken → KdsStmtInsert → Prop where
  | mk {into tok values lparen rparen : KdsToken} {toks semi : List KdsToken} {name : CString}
      {vals : List KdsAstVal} :
      isKeyword kwINTO into → IsName tok name → isKeyword kwVALUES values →
      lparen.type = .lparen → SepList IsComma (One IsValue) toks vals →
      vals.length ≤ KDS_PARSER_MAX_VALS → rparen.type = .rparen → Semicolon semi →
      Insert (into :: tok :: values :: lparen :: (toks ++ rparen :: semi)) ⟨name, vals⟩

/-- `* FROM <name> [WHERE <cond> [AND <cond>]*];`. -/
inductive Select : List KdsToken → KdsStmtSelect → Prop where
  | mk {star source tok : KdsToken} {toks semi : List KdsToken} {name : CString} {has_where : Bool}
      {conds : List KdsAstCond} :
      star.type = .star → isKeyword kwFROM source → IsName tok name →
      Where toks (has_where, conds) → Semicolon semi →
      Select (star :: source :: tok :: (toks ++ semi)) ⟨name, has_where, conds⟩

/-- `META;` or `ALLOC;`. -/
inductive Show : List KdsToken → KdsStmt → Prop where
  | meta_ {tok : KdsToken} {semi : List KdsToken} : isKeyword kwMETA tok → Semicolon semi →
      Show (tok :: semi) .show_meta
  | alloc {tok : KdsToken} {semi : List KdsToken} : isKeyword kwALLOC tok → Semicolon semi →
      Show (tok :: semi) .show_alloc

/-- The statements. -/
inductive Statement : List KdsToken → KdsStmt → Prop where
  | create_table {tok : KdsToken} {toks : List KdsToken} {stmt : KdsStmtCreateTable} :
      isKeyword kwCREATE tok → CreateTable toks stmt → Statement (tok :: toks) (.create_table stmt)
  | insert {tok : KdsToken} {toks : List KdsToken} {stmt : KdsStmtInsert} :
      isKeyword kwINSERT tok → Insert toks stmt → Statement (tok :: toks) (.insert stmt)
  | select {tok : KdsToken} {toks : List KdsToken} {stmt : KdsStmtSelect} :
      isKeyword kwSELECT tok → Select toks stmt → Statement (tok :: toks) (.select stmt)
  | show_ {tok : KdsToken} {toks : List KdsToken} {stmt : KdsStmt} :
      isKeyword kwSHOW tok → Show toks stmt → Statement (tok :: toks) stmt

/-! ## Section 2: The lexer as a source -/

theorem lexTokens_cases (pos : List UInt8) :
    (lexer_read pos = (eofToken, []) ∧ lexTokens pos = []) ∨
      ((lexer_read pos).1.type ≠ .eof ∧
        lexTokens pos = (lexer_read pos).1 :: lexTokens (lexer_read pos).2) := by
  rcases lexer_read_rest pos with h | h
  · exact .inl ⟨h, lexTokens_nil h⟩
  · exact .inr ⟨h.1, lexTokens_cons rfl h.1⟩

theorem sqlSource : Source KdsLexer.tokens nextToken peekToken eofToken where
  next_cons := by
    intro l t ts h
    unfold KdsLexer.tokens at h
    unfold nextToken lexer_next
    -- the next token is the peeked one, or is read from the text
    cases hpeek : l.peek with
    | none =>
      rw [hpeek] at h
      rcases lexTokens_cases l.pos with ⟨_, hnil⟩ | ⟨_, hcons⟩
      · rw [hnil] at h
        cases h
      · rw [hcons] at h
        obtain ⟨rfl, rfl⟩ := List.cons.inj h
        exact ⟨_, rfl, rfl⟩
    | some tok =>
      rw [hpeek] at h
      dsimp only at h
      by_cases heof : tok.type = .eof
      · rw [if_pos heof] at h
        cases h
      · rw [if_neg heof] at h
        obtain ⟨rfl, rfl⟩ := List.cons.inj h
        exact ⟨_, rfl, rfl⟩
  next_nil := by
    intro l h
    unfold KdsLexer.tokens at h
    unfold nextToken lexer_next
    cases hpeek : l.peek with
    | none =>
      rw [hpeek] at h
      rcases lexTokens_cases l.pos with ⟨hread, _⟩ | ⟨_, hcons⟩
      · have hfst : (lexer_read l.pos).1 = eofToken := congrArg Prod.fst hread
        exact ⟨_, by rw [← hfst]⟩
      · rw [hcons] at h
        cases h
    | some tok =>
      rw [hpeek] at h
      dsimp only at h
      by_cases heof : tok.type = .eof
      -- a peeked end of the text is the token of the end, with no text left
      · obtain ⟨rfl, _⟩ := l.peek_eof tok hpeek heof
        exact ⟨_, rfl⟩
      · rw [if_neg heof] at h
        cases h
  peek_cons := by
    intro l t ts h
    have htokens := h
    unfold KdsLexer.tokens at h
    unfold peekToken lexer_peek
    cases hpeek : l.peek with
    | none =>
      rw [hpeek] at h
      rcases lexTokens_cases l.pos with ⟨_, hnil⟩ | ⟨htype, hcons⟩
      · rw [hnil] at h
        cases h
      · rw [hcons] at h
        obtain ⟨rfl, rfl⟩ := List.cons.inj h
        refine ⟨_, rfl, ?_⟩
        unfold KdsLexer.tokens
        exact if_neg htype
    | some tok =>
      rw [hpeek] at h
      dsimp only at h
      by_cases heof : tok.type = .eof
      · rw [if_pos heof] at h
        cases h
      · rw [if_neg heof] at h
        obtain ⟨rfl, rfl⟩ := List.cons.inj h
        exact ⟨l, rfl, htokens⟩
  peek_nil := by
    intro l h
    have htokens := h
    unfold KdsLexer.tokens at h
    unfold peekToken lexer_peek
    cases hpeek : l.peek with
    | none =>
      rw [hpeek] at h
      rcases lexTokens_cases l.pos with ⟨hread, _⟩ | ⟨_, hcons⟩
      · have hfst : (lexer_read l.pos).1 = eofToken := congrArg Prod.fst hread
        dsimp only
        refine ⟨_, by rw [← hfst], ?_⟩
        unfold KdsLexer.tokens
        dsimp only
        rw [hfst]
        exact if_pos rfl
      · rw [hcons] at h
        cases h
    | some tok =>
      rw [hpeek] at h
      dsimp only at h
      by_cases heof : tok.type = .eof
      · obtain ⟨rfl, _⟩ := l.peek_eof tok hpeek heof
        exact ⟨l, rfl, htokens⟩
      · rw [if_neg heof] at h
        cases h

/-! ## Section 3: What each function recognises -/

/-- Nothing follows. -/
def AtEnd (rest : List KdsToken) : Prop := rest = []

theorem pure_recognises {α : Type} (a : α) :
    Recognises KdsLexer.tokens (pure a : SqlParser α) (fun used b => used = [] ∧ b = a) Anything :=
  Recognises.pure a

theorem expect_keyword_recognises (keyword : CString) :
    Recognises KdsLexer.tokens (expect_keyword keyword) (One fun tok _ => isKeyword keyword tok)
      Anything := by
  apply sqlSource.one
  · intro tok
    by_cases h : isKeyword keyword tok
    · exact .inl ⟨(), if_pos h, fun _ => ⟨fun _ => rfl, fun _ => h⟩⟩
    · exact .inr ⟨⟨_, if_neg h⟩, fun _ => h⟩
  · exact fun _ h => absurd h.1 (by decide)

theorem expect_token_recognises {type : KdsTokenType} (desc : List UInt8) (hne : type ≠ .eof) :
    Recognises KdsLexer.tokens (expect_token type desc) (One fun tok _ => tok.type = type)
      Anything := by
  apply sqlSource.one
  · intro tok
    by_cases h : tok.type = type
    · exact .inl ⟨(), if_pos h, fun _ => ⟨fun _ => rfl, fun _ => h⟩⟩
    · exact .inr ⟨⟨_, if_neg h⟩, fun _ => h⟩
  · exact fun _ h => hne h.symm

theorem isName_iff {tok : KdsToken} {name : CString} :
    IsName tok name ↔ tok.type = .ident ∧ name = strncpyTo KDS_PARSER_NAME_MAX tok.text := by
  constructor
  · rintro ⟨h⟩
    exact ⟨h, rfl⟩
  · rintro ⟨h, rfl⟩
    exact ⟨h⟩

theorem parse_ident_recognises :
    Recognises KdsLexer.tokens (parse_ident KDS_PARSER_NAME_MAX) (One IsName) Anything := by
  apply sqlSource.one
  · intro tok
    by_cases h : tok.type = .ident
    · refine .inl ⟨_, if_pos h, fun name => ?_⟩
      rw [isName_iff]
      exact ⟨fun hname => hname.2, fun hname => ⟨h, hname⟩⟩
    · exact .inr ⟨⟨_, if_neg h⟩, fun name hname => h (isName_iff.mp hname).1⟩
  · exact fun _ h => absurd (isName_iff.mp h).1 (by decide)

theorem parse_value_recognises :
    Recognises KdsLexer.tokens parse_value (One IsValue) Anything := by
  apply sqlSource.one
  · intro tok
    cases htype : tok.type with
    | int_lit =>
      refine .inl ⟨_, rfl, fun val => ⟨fun h => ?_, fun h => h ▸ .int htype⟩⟩
      cases h with
      | int _ => rfl
      | str h => rw [h] at htype; cases htype
      | null h => rw [h] at htype; cases htype
    | str_lit =>
      refine .inl ⟨_, rfl, fun val => ⟨fun h => ?_, fun h => h ▸ .str htype⟩⟩
      cases h with
      | int h => rw [h] at htype; cases htype
      | str _ => rfl
      | null h => rw [h] at htype; cases htype
    | null =>
      refine .inl ⟨_, rfl, fun val => ⟨fun h => ?_, fun h => h ▸ .null htype⟩⟩
      cases h with
      | int h => rw [h] at htype; cases htype
      | str h => rw [h] at htype; cases htype
      | null _ => rfl
    | _ =>
      refine .inr ⟨⟨_, rfl⟩, fun val h => ?_⟩
      cases h <;> simp_all
  · rintro val (h | h | h) <;> exact absurd h (by decide)

/-- The operator of a token, if it is one. -/
def KdsTokenType.condOp? : KdsTokenType → Option KdsCondOp
  | .eq => some .eq
  | .neq => some .neq
  | .lt => some .lt
  | .lte => some .lte
  | .gt => some .gt
  | .gte => some .gte
  | _ => none

theorem condOp?_eq_some {type : KdsTokenType} {op : KdsCondOp} :
    type.condOp? = some op ↔ type = op.tokenType := by
  constructor
  · cases type <;> cases op <;> simp [KdsTokenType.condOp?, KdsCondOp.tokenType]
  · rintro rfl
    cases op <;> rfl

theorem parse_cond_op_recognises :
    Recognises KdsLexer.tokens parse_cond_op (One fun tok op => tok.type = op.tokenType)
      Anything := by
  apply sqlSource.one
  · intro tok
    have hyields : ∀ op, tok.type.condOp? = some op →
        (∃ a : KdsCondOp, (pure op : SqlParser KdsCondOp) = pure a ∧
          ∀ b : KdsCondOp, tok.type = b.tokenType ↔ b = a) := by
      intro op hop
      refine ⟨op, rfl, fun b => ?_⟩
      rw [← condOp?_eq_some, hop, Option.some.injEq, eq_comm]
    cases htype : tok.type with
    | eq | neq | lt | lte | gt | gte =>
      rw [htype] at hyields
      exact .inl (hyields _ rfl)
    | _ =>
      refine .inr ⟨⟨_, rfl⟩, fun op h => ?_⟩
      cases condOp?_eq_some.mpr h
  · intro op h
    cases op <;> exact absurd h (by decide)

/-- The array for a type name cuts no name of a type. -/
theorem kds_type_lookup_by_name_cut (text : CString) :
    kds_type_lookup_by_name (strncpyTo KDS_PARSER_NAME_MAX text) = kds_type_lookup_by_name text := by
  by_cases hlen : text.bytes.length ≤ KDS_PARSER_NAME_MAX - 1
  · have hsame : strncpyTo KDS_PARSER_NAME_MAX text = text := by
      unfold strncpyTo
      rw [List.take_of_length_le hlen]
      exact CString.ext' (CString.ofBuffer_bytes text.no_nul)
    rw [hsame]
  · have hcut : (strncpyTo KDS_PARSER_NAME_MAX text).bytes.length = KDS_PARSER_NAME_MAX - 1 := by
      unfold strncpyTo
      rw [CString.ofBuffer_bytes fun h => text.no_nul (List.mem_of_mem_take h), List.length_take]
      omega
    -- the names of types have 7 characters at most
    have hshort : ∀ desc ∈ kds_type_table, desc.name.length ≤ 7 := by decide
    have hnone : ∀ s : CString, 7 < s.bytes.length → kds_type_lookup_by_name s = none := by
      intro s hs
      apply List.find?_eq_none.mpr
      intro desc hdesc hname
      have hle := hshort desc hdesc
      rw [of_decide_eq_true hname] at hle
      omega
    rw [hnone text (by simp only [KDS_PARSER_NAME_MAX] at hlen; omega),
      hnone _ (by rw [hcut]; decide)]

theorem parseColumn_recognises : Recognises KdsLexer.tokens parseColumn Column Anything := by
  refine Recognises.congr (parse_ident_recognises.bind (fun name => parse_ident_recognises.bind
    (fun type_name => Yields.recognises (R := fun col =>
      ∃ desc, kds_type_lookup_by_name type_name = some desc ∧
        col = ⟨name, desc.type_val, desc.fixed_len⟩) ?_)
    fun _ _ _ _ _ _ => trivial) fun _ _ _ _ _ _ => trivial) (fun used col => ?_) fun _ h => h
  · cases kds_type_lookup_by_name type_name with
    | none => exact .inr ⟨⟨_, rfl⟩, by simp⟩
    | some desc => exact .inl ⟨_, rfl, by simp⟩
  simp only [seq_one]
  constructor
  · rintro ⟨hcol, htype, hdesc⟩
    refine ⟨_, _, _, rfl, hcol, _, _, _, rfl, ⟨htype⟩, rfl, _, ?_, rfl⟩
    rw [kds_type_lookup_by_name_cut]
    exact hdesc
  · rintro ⟨col, _, name, rfl, hcol, type, _, type_name, rfl, ⟨htype⟩, rfl, desc, hdesc, rfl⟩
    rw [kds_type_lookup_by_name_cut] at hdesc
    exact ⟨hcol, htype, hdesc⟩

theorem parse_one_cond_recognises :
    Recognises KdsLexer.tokens parse_one_cond Cond Anything := by
  have hval := fun (col_name : CString) (op : KdsCondOp) => parse_value_recognises.bind
    (fun val => pure_recognises (⟨col_name, op, val⟩ : KdsAstCond)) fun _ _ _ _ _ _ => trivial
  have hop := fun col_name => parse_cond_op_recognises.bind (hval col_name)
    fun _ _ _ _ _ _ => trivial
  have hcond := parse_ident_recognises.bind hop fun _ _ _ _ _ _ => trivial
  apply hcond.congr _ fun _ h => h
  intro used cond
  simp only [seq_one]
  constructor
  · rintro ⟨hcol, hop, hval⟩
    exact ⟨_, _, _, rfl, hcol, _, _, _, rfl, hop, _, _, _, rfl, hval, rfl, rfl⟩
  · rintro ⟨col, _, name, rfl, hcol, op, _, cond_op, rfl, hop, val, _, v, rfl, hval, rfl, rfl⟩
    exact ⟨hcol, hop, hval⟩

/-- A loop over a list, with room for `max` elements. -/
theorem sepLoop_recognises {α : Type} {elem : SqlParser α} {sep : KdsToken → Prop}
    [DecidablePred sep] {D : List KdsToken → α → Prop} (full : List UInt8)
    (helem : Recognises KdsLexer.tokens elem D Anything) (hsep : ¬ sep eofToken) (max : Nat) :
    Recognises KdsLexer.tokens (sepLoop nextToken peekToken elem sep full max [])
      (fun used as => as.length ≤ max ∧ SepList sep D used as) (NotNext sep) := by
  apply (sqlSource.sepLoop helem hsep max []).congr _ fun _ h => h
  intro used as
  simp

theorem parseColumns_recognises :
    Recognises KdsLexer.tokens parseColumns
      (fun used cols => cols.length ≤ KDS_PARSER_MAX_COLS ∧ SepList IsComma Column used cols)
      (NotNext IsComma) :=
  sepLoop_recognises _ parseColumn_recognises (by decide) KDS_PARSER_MAX_COLS

theorem parseValues_recognises :
    Recognises KdsLexer.tokens parseValues
      (fun used vals => vals.length ≤ KDS_PARSER_MAX_VALS ∧ SepList IsComma (One IsValue) used vals)
      (NotNext IsComma) :=
  sepLoop_recognises _ parse_value_recognises (by decide) KDS_PARSER_MAX_VALS

theorem parseConds_recognises :
    Recognises KdsLexer.tokens parseConds
      (fun used conds => conds.length ≤ KDS_PARSER_MAX_CONDS ∧
        SepList (isKeyword kwAND) Cond used conds)
      (NotNext (isKeyword kwAND)) :=
  sepLoop_recognises _ parse_one_cond_recognises (fun h => absurd h.1 (by decide))
    KDS_PARSER_MAX_CONDS

/-- A token is one keyword at most. -/
theorem isKeyword_unique {tok : KdsToken} {kw kw' : CString} (h : isKeyword kw tok)
    (h' : isKeyword kw' tok) : kw.bytes.map tolower = kw'.bytes.map tolower := by
  have heq := h.2
  have heq' := h'.2
  unfold strcaseEq at heq heq'
  rw [beq_iff_eq] at heq heq'
  exact heq.symm.trans heq'

theorem notNext_nil (c : KdsToken → Prop) : NotNext c [] := by
  intro t h
  cases h

theorem notNext_cons {c : KdsToken → Prop} {tok : KdsToken} {toks : List KdsToken} (h : ¬ c tok) :
    NotNext c (tok :: toks) := by
  intro t ht
  obtain rfl := Option.some.inj ht
  exact h

/-- Nothing but a semicolon can follow here. -/
theorem Semicolon.notNext {semi : List KdsToken} (h : Semicolon semi) {c : KdsToken → Prop}
    (hc : ∀ tok : KdsToken, tok.type = .semicolon → ¬ c tok) : NotNext c semi := by
  cases h with
  | none => exact notNext_nil c
  | some htok => exact notNext_cons (hc _ htok)

theorem consume_optional_semicolon_recognises :
    Recognises KdsLexer.tokens consume_optional_semicolon (fun used _ => Semicolon used) AtEnd := by
  have htake : ∀ tok : KdsToken, tok.type = .semicolon →
      semicolonClause tok = nextToken >>= fun _ => pure () := fun tok htok => if_pos htok
  have hleave : ∀ tok : KdsToken, ¬ tok.type = .semicolon → semicolonClause tok = pure () :=
    fun tok htok => if_neg htok
  have hpure : Recognises KdsLexer.tokens (pure () : SqlParser PUnit)
      (fun used u => used = [] ∧ u = ()) AtEnd :=
    (pure_recognises ()).congr (fun _ _ => Iff.rfl) fun _ _ => trivial
  have hnot : ∀ (used : List KdsToken) (u : PUnit) rest, used = [] ∧ u = () → AtEnd rest →
      NotNext (fun tok => tok.type = .semicolon) (used ++ rest) := by
    rintro used u rest ⟨rfl, _⟩ rfl
    exact notNext_nil _
  apply (sqlSource.choice (by decide) htake hleave (fun _ _ => hpure) hpure hnot).congr _
    fun _ h => h
  intro used u
  constructor
  · intro h
    cases h with
    | none => exact .inr ⟨rfl, rfl⟩
    | some htok => exact .inl ⟨_, [], rfl, htok, rfl, rfl⟩
  · rintro (⟨tok, _, rfl, htok, rfl, _⟩ | ⟨rfl, _⟩)
    · exact .some htok
    · exact .none

/-- `HEAP` or `BTREE`. -/
def IsStorage (tok : KdsToken) : Prop := isKeyword kwHEAP tok ∨ isKeyword kwBTREE tok

theorem storageClause_recognises :
    Recognises KdsLexer.tokens (peekToken >>= storageClause) Storage (NotNext IsStorage) := by
  -- one identifier is not both keywords, so the order of the two tests does not matter
  have heap_ne_btree : ∀ tok, isKeyword kwBTREE tok → ¬ isKeyword kwHEAP tok := by
    intro tok hbtree hheap
    exact absurd (isKeyword_unique hheap hbtree) (by decide)
  have htake : ∀ tok, IsStorage tok → storageClause tok =
      nextToken >>= fun _ => pure (if isKeyword kwHEAP tok then .heap else .btree) := by
    intro tok htok
    unfold storageClause
    rcases htok with hheap | hbtree
    · rw [if_pos hheap.1, if_pos hheap.2, if_pos hheap]
    · have hnot := heap_ne_btree tok hbtree
      rw [if_pos hbtree.1, if_neg fun h => hnot ⟨hbtree.1, h⟩, if_pos hbtree.2, if_neg hnot]
  have hleave : ∀ tok, ¬ IsStorage tok → storageClause tok = pure .heap := by
    intro tok htok
    unfold storageClause
    by_cases htype : tok.type = .ident
    · rw [if_pos htype, if_neg fun h => htok (.inl ⟨htype, h⟩),
        if_neg fun h => htok (.inr ⟨htype, h⟩)]
    · rw [if_neg htype]
  have hpure : ∀ kind : ClusteredType, Recognises KdsLexer.tokens (pure kind : SqlParser ClusteredType)
      (fun used clustered => used = [] ∧ clustered = kind) (NotNext IsStorage) :=
    fun kind => (pure_recognises kind).congr (fun _ _ => Iff.rfl) fun _ _ => trivial
  have hnot : ∀ used (clustered : ClusteredType) rest, used = [] ∧ clustered = .heap →
      NotNext IsStorage rest → NotNext IsStorage (used ++ rest) := by
    rintro used clustered rest ⟨rfl, _⟩ hrest
    exact hrest
  have heof : ¬ IsStorage eofToken := by
    rintro (h | h) <;> exact absurd h.1 (by decide)
  apply (sqlSource.choice heof htake hleave (fun _ _ => hpure _) (hpure .heap) hnot).congr _
    fun _ h => h
  intro used clustered
  constructor
  · intro h
    cases h with
    | none => exact .inr ⟨rfl, rfl⟩
    | heap htok => exact .inl ⟨_, [], rfl, .inl htok, rfl, (if_pos htok).symm⟩
    | btree htok =>
      exact .inl ⟨_, [], rfl, .inr htok, rfl, (if_neg (heap_ne_btree _ htok)).symm⟩
  · rintro (⟨tok, _, rfl, htok, rfl, rfl⟩ | ⟨rfl, rfl⟩)
    · rcases htok with hheap | hbtree
      · rw [if_pos hheap]
        exact .heap hheap
      · rw [if_neg (heap_ne_btree _ hbtree)]
        exact .btree hbtree
    · exact .none

/-- What goes on with a WHERE clause. -/
def IsWhereOrAnd (tok : KdsToken) : Prop := isKeyword kwWHERE tok ∨ isKeyword kwAND tok

theorem whereClause_recognises :
    Recognises KdsLexer.tokens (peekToken >>= whereClause) Where (NotNext IsWhereOrAnd) := by
  have htake : ∀ tok, isKeyword kwWHERE tok → whereClause tok =
      nextToken >>= fun _ => parseConds >>= fun conds => pure (true, conds) :=
    fun tok htok => if_pos htok
  have hleave : ∀ tok, ¬ isKeyword kwWHERE tok → whereClause tok = pure (false, []) :=
    fun tok htok => if_neg htok
  have hpure : ∀ out : Bool × List KdsAstCond, Recognises KdsLexer.tokens
      (pure out : SqlParser (Bool × List KdsAstCond)) (fun used b => used = [] ∧ b = out)
      (NotNext IsWhereOrAnd) :=
    fun out => (pure_recognises out).congr (fun _ _ => Iff.rfl) fun _ _ => trivial
  have hconds := parseConds_recognises.bind (fun conds => hpure (true, conds)) (by
    rintro conds used out rest ⟨rfl, _⟩ hrest tok htok hand
    exact hrest tok htok (.inr hand))
  have hnot : ∀ used (out : Bool × List KdsAstCond) rest, used = [] ∧ out = (false, []) →
      NotNext IsWhereOrAnd rest → NotNext (isKeyword kwWHERE) (used ++ rest) := by
    rintro used out rest ⟨rfl, _⟩ hrest tok htok hwhere
    exact hrest tok htok (.inl hwhere)
  have heof : ¬ isKeyword kwWHERE eofToken := fun h => absurd h.1 (by decide)
  apply (sqlSource.choice heof htake hleave (fun _ _ => hconds) (hpure _) hnot).congr _
    fun _ h => h
  intro used out
  constructor
  · intro h
    cases h with
    | none => exact .inr ⟨rfl, rfl⟩
    | conds htok hlist hlen =>
      exact .inl ⟨_, _, rfl, htok, _, [], _, (List.append_nil _).symm, ⟨hlen, hlist⟩, rfl, rfl⟩
  · rintro (⟨tok, _, rfl, htok, toks, _, conds, rfl, ⟨hlen, hlist⟩, rfl, rfl⟩ | ⟨rfl, rfl⟩)
    · rw [List.append_nil]
      exact .conds htok hlist hlen
    · exact .none

/-! ## Section 4: Statements -/

/-- A semicolon or nothing, and then a value. -/
theorem semicolon_recognises {α : Type} (a : α) :
    Recognises KdsLexer.tokens (consume_optional_semicolon >>= fun _ => pure a)
      (fun used b => Semicolon used ∧ b = a) AtEnd := by
  have hpure : Recognises KdsLexer.tokens (pure a : SqlParser α) (fun used b => used = [] ∧ b = a)
      AtEnd := (pure_recognises a).congr (fun _ _ => Iff.rfl) fun _ _ => trivial
  have hseq := consume_optional_semicolon_recognises.bind (fun _ => hpure) (by
    rintro u used b rest ⟨rfl, _⟩ hrest
    exact hrest)
  apply hseq.congr _ fun _ h => h
  intro used b
  constructor
  · rintro ⟨hsemi, rfl⟩
    exact ⟨used, [], (), (List.append_nil _).symm, hsemi, rfl, rfl⟩
  · rintro ⟨used', _, _, rfl, hsemi, rfl, rfl⟩
    rw [List.append_nil]
    exact ⟨hsemi, rfl⟩

theorem lparen_recognises :
    Recognises KdsLexer.tokens (expect_token .lparen (quoted (ascii "(")))
      (One fun tok _ => tok.type = .lparen) Anything :=
  expect_token_recognises _ (by decide)

theorem rparen_recognises :
    Recognises KdsLexer.tokens (expect_token .rparen (quoted (ascii ")")))
      (One fun tok _ => tok.type = .rparen) Anything :=
  expect_token_recognises _ (by decide)

/-- What follows a closing parenthesis is no list element. -/
theorem notNext_comma_rparen {β : Type} {D : PUnit → List KdsToken → β → Prop} {used rest : List KdsToken}
    {b : β} (h : Seq (One fun tok (_ : PUnit) => tok.type = .rparen) D used b) :
    NotNext IsComma (used ++ rest) := by
  obtain ⟨tok, used', _, rfl, htok, _⟩ := seq_one.mp h
  apply notNext_cons
  unfold IsComma
  rw [htok]
  decide

/-- A storage clause or none, a semicolon or none, and then the statement. -/
theorem storage_recognises (name : CString) (cols : List KdsAstColDef) :
    Recognises KdsLexer.tokens
      (peekToken >>= fun peek => storageClause peek >>= fun clustered =>
        consume_optional_semicolon >>= fun _ =>
          pure (⟨name, cols, clustered⟩ : KdsStmtCreateTable))
      (Seq Storage fun clustered used stmt => Semicolon used ∧ stmt = ⟨name, cols, clustered⟩)
      AtEnd := by
  rw [← bind_assoc]
  apply storageClause_recognises.bind fun clustered => semicolon_recognises _
  rintro clustered used stmt rest ⟨hsemi, _⟩ rfl
  rw [List.append_nil]
  apply hsemi.notNext
  rintro tok htok (h | h) <;> exact absurd (htok.symm.trans h.1) (by decide)

theorem parse_create_table_recognises :
    Recognises KdsLexer.tokens parse_create_table CreateTable AtEnd := by
  -- the check for an empty column list fails where the grammar has no such statement
  have hend : ∀ (name : CString) (cols : List KdsAstColDef), Recognises KdsLexer.tokens
      (if cols = [] then throw (ascii "CREATE TABLE requires at least one column")
        else peekToken >>= fun peek => storageClause peek >>= fun clustered =>
          consume_optional_semicolon >>= fun _ =>
            pure (⟨name, cols, clustered⟩ : KdsStmtCreateTable))
      (fun used stmt => cols ≠ [] ∧ Seq Storage (fun clustered used stmt => Semicolon used ∧
        stmt = ⟨name, cols, clustered⟩) used stmt) AtEnd := by
    intro name cols
    by_cases hcols : cols = []
    · rw [if_pos hcols]
      exact (Recognises.throw _).congr (fun _ _ => ⟨fun h => h.1 hcols, False.elim⟩) fun _ h => h
    · rw [if_neg hcols]
      apply (storage_recognises name cols).congr _ fun _ h => h
      exact fun _ _ => ⟨fun h => h.2, fun h => ⟨hcols, h⟩⟩
  have hrparen := fun name cols =>
    rparen_recognises.bind (fun _ => hend name cols)
      fun _ _ _ _ _ _ => trivial
  have hcols := fun name => parseColumns_recognises.bind (hrparen name)
    fun cols used stmt rest h _ => notNext_comma_rparen h
  have hlparen := fun name =>
    lparen_recognises.bind (fun _ => hcols name)
      fun _ _ _ _ _ _ => trivial
  have hname := parse_ident_recognises.bind hlparen fun _ _ _ _ _ _ => trivial
  have htable := (expect_keyword_recognises kwTABLE).bind (fun _ => hname)
    fun _ _ _ _ _ _ => trivial
  apply htable.congr _ fun _ h => h
  intro used stmt
  simp only [seq_one]
  constructor
  · rintro ⟨htable, hname, hlparen, hlist, hlen, hrparen, hstorage, hsemi⟩
    -- a list of the grammar has at least one column
    have hne := List.ne_nil_of_length_pos hlist.length_pos
    refine ⟨_, _, (), rfl, htable, _, _, _, rfl, hname, _, _, (), rfl, hlparen, _, _, _, rfl,
      ⟨hlen, hlist⟩, ?_⟩
    exact seq_one.mpr ⟨_, _, (), rfl, hrparen, hne, _, _, _, rfl, hstorage, hsemi, rfl⟩
  · rintro ⟨table, _, _, rfl, htable, tok, _, name, rfl, hname, lparen, _, _, rfl, hlparen, toks, _,
      cols, rfl, ⟨hlen, hlist⟩, hrest⟩
    obtain ⟨rparen, _, _, rfl, hrparen, _, storage, semi, clustered, rfl, hstorage, hsemi, rfl⟩ :=
      seq_one.mp hrest
    exact .mk htable hname hlparen hlist hlen hrparen hstorage hsemi

theorem parse_insert_recognises : Recognises KdsLexer.tokens parse_insert Insert AtEnd := by
  have hend : ∀ (name : CString) (vals : List KdsAstVal), Recognises KdsLexer.tokens
      (if vals = [] then throw (ascii "INSERT VALUES requires at least one value")
        else consume_optional_semicolon >>= fun _ => pure (⟨name, vals⟩ : KdsStmtInsert))
      (fun used stmt => vals ≠ [] ∧ Semicolon used ∧ stmt = ⟨name, vals⟩) AtEnd := by
    intro name vals
    by_cases hvals : vals = []
    · rw [if_pos hvals]
      exact (Recognises.throw _).congr (fun _ _ => ⟨fun h => h.1 hvals, False.elim⟩) fun _ h => h
    · rw [if_neg hvals]
      apply (semicolon_recognises _).congr _ fun _ h => h
      exact fun _ _ => ⟨fun h => h.2, fun h => ⟨hvals, h⟩⟩
  have hrparen := fun name vals =>
    rparen_recognises.bind (fun _ => hend name vals)
      fun _ _ _ _ _ _ => trivial
  have hvals := fun name => parseValues_recognises.bind (hrparen name)
    fun vals used stmt rest h _ => notNext_comma_rparen h
  have hlparen := fun name =>
    lparen_recognises.bind (fun _ => hvals name)
      fun _ _ _ _ _ _ => trivial
  have hvalues := fun name => (expect_keyword_recognises kwVALUES).bind (fun _ => hlparen name)
    fun _ _ _ _ _ _ => trivial
  have hname := parse_ident_recognises.bind hvalues fun _ _ _ _ _ _ => trivial
  have hinto := (expect_keyword_recognises kwINTO).bind (fun _ => hname) fun _ _ _ _ _ _ => trivial
  apply hinto.congr _ fun _ h => h
  intro used stmt
  simp only [seq_one]
  constructor
  · rintro ⟨hinto, hname, hvalues, hlparen, hlist, hlen, hrparen, hsemi⟩
    have hne := List.ne_nil_of_length_pos hlist.length_pos
    refine ⟨_, _, (), rfl, hinto, _, _, _, rfl, hname, _, _, (), rfl, hvalues, _, _, (), rfl,
      hlparen, _, _, _, rfl, ⟨hlen, hlist⟩, ?_⟩
    exact seq_one.mpr ⟨_, _, (), rfl, hrparen, hne, hsemi, rfl⟩
  · rintro ⟨into, _, _, rfl, hinto, tok, _, name, rfl, hname, values, _, _, rfl, hvalues, lparen, _,
      _, rfl, hlparen, toks, _, vals, rfl, ⟨hlen, hlist⟩, hrest⟩
    obtain ⟨rparen, semi, _, rfl, hrparen, _, hsemi, rfl⟩ := seq_one.mp hrest
    exact .mk hinto hname hvalues hlparen hlist hlen hrparen hsemi

theorem selectList_recognises :
    Recognises KdsLexer.tokens selectList (One fun tok _ => tok.type = .star) Anything := by
  apply sqlSource.one
  · intro tok
    by_cases h : tok.type = .star
    · exact .inl ⟨(), if_pos h, fun _ => ⟨fun _ => rfl, fun _ => h⟩⟩
    · exact .inr ⟨⟨_, if_neg h⟩, fun _ => h⟩
  · exact fun _ h => absurd h (by decide)

theorem parse_select_recognises : Recognises KdsLexer.tokens parse_select Select AtEnd := by
  have hwhere : ∀ name : CString, Recognises KdsLexer.tokens
      (peekToken >>= fun peek => whereClause peek >>= fun clause =>
        consume_optional_semicolon >>= fun _ =>
          pure (⟨name, clause.1, clause.2⟩ : KdsStmtSelect))
      (Seq Where fun clause used stmt => Semicolon used ∧ stmt = ⟨name, clause.1, clause.2⟩)
      AtEnd := by
    intro name
    rw [← bind_assoc]
    apply whereClause_recognises.bind fun clause => semicolon_recognises _
    rintro clause used stmt rest ⟨hsemi, _⟩ rfl
    rw [List.append_nil]
    apply hsemi.notNext
    rintro tok htok (h | h) <;> exact absurd (htok.symm.trans h.1) (by decide)
  have hname := parse_ident_recognises.bind hwhere fun _ _ _ _ _ _ => trivial
  have hfrom := (expect_keyword_recognises kwFROM).bind (fun _ => hname) fun _ _ _ _ _ _ => trivial
  have hstar := selectList_recognises.bind (fun _ => hfrom) fun _ _ _ _ _ _ => trivial
  apply hstar.congr _ fun _ h => h
  intro used stmt
  simp only [seq_one]
  constructor
  · rintro ⟨hstar, hfrom, hname, hwhere, hsemi⟩
    exact ⟨_, _, (), rfl, hstar, _, _, (), rfl, hfrom, _, _, _, rfl, hname, _, _, _, rfl, hwhere,
      hsemi, rfl⟩
  · rintro ⟨star, _, _, rfl, hstar, source, _, _, rfl, hfrom, tok, _, name, rfl, hname, toks, semi,
      clause, rfl, hwhere, hsemi, rfl⟩
    exact .mk hstar hfrom hname hwhere hsemi

/-- No parser accepts where its grammar has nothing. -/
theorem throw_recognises {α : Type} {D : List KdsToken → α → Prop} {F : List KdsToken → Prop}
    (msg : List UInt8) (h : ∀ used a, ¬ D used a) :
    Recognises KdsLexer.tokens (throw msg : SqlParser α) D F :=
  (Recognises.throw msg).congr (fun used a => ⟨h used a, False.elim⟩) fun _ h => h

theorem showTarget_recognises (tok : KdsToken) :
    Recognises KdsLexer.tokens (showTarget tok) (fun used stmt => Show (tok :: used) stmt) AtEnd := by
  unfold showTarget
  by_cases htype : tok.type = .ident
  · rw [if_pos htype]
    -- META first, then ALLOC; any other word is an error and no statement
    by_cases hmeta : strcaseEq tok.text kwMETA
    · rw [if_pos hmeta]
      apply (semicolon_recognises _).congr _ fun _ h => h
      intro used stmt
      constructor
      · intro h
        cases h with
        | meta_ _ hsemi => exact ⟨hsemi, rfl⟩
        | alloc halloc _ => exact absurd (isKeyword_unique ⟨htype, hmeta⟩ halloc) (by decide)
      · rintro ⟨hsemi, rfl⟩
        exact .meta_ ⟨htype, hmeta⟩ hsemi
    · rw [if_neg hmeta]
      by_cases halloc : strcaseEq tok.text kwALLOC
      · rw [if_pos halloc]
        apply (semicolon_recognises _).congr _ fun _ h => h
        intro used stmt
        constructor
        · intro h
          cases h with
          | meta_ h _ => exact absurd h.2 hmeta
          | alloc _ hsemi => exact ⟨hsemi, rfl⟩
        · rintro ⟨hsemi, rfl⟩
          exact .alloc ⟨htype, halloc⟩ hsemi
      · rw [if_neg halloc]
        apply throw_recognises
        intro used stmt h
        cases h with
        | meta_ h _ => exact hmeta h.2
        | alloc h _ => exact halloc h.2
  · rw [if_neg htype]
    apply throw_recognises
    intro used stmt h
    cases h with
    | meta_ h _ => exact htype h.1
    | alloc h _ => exact htype h.1

theorem parse_show_recognises : Recognises KdsLexer.tokens parse_show Show AtEnd := by
  have heof : ∀ l stmt l', showTarget eofToken l ≠ .ok (stmt, l') := by
    intro l stmt l' h
    cases h
  apply (sqlSource.token showTarget_recognises heof).congr _ fun _ h => h
  intro used stmt
  constructor
  · intro h
    cases h with
    | meta_ htok hsemi => exact ⟨_, _, rfl, .meta_ htok hsemi⟩
    | alloc htok hsemi => exact ⟨_, _, rfl, .alloc htok hsemi⟩
  · rintro ⟨tok, used', rfl, h⟩
    exact h

/-- The keyword a statement starts with. -/
def KdsStmt.keyword : KdsStmt → CString
  | .create_table _ => kwCREATE
  | .insert _ => kwINSERT
  | .select _ => kwSELECT
  | .show_meta => kwSHOW
  | .show_alloc => kwSHOW

theorem Statement.keyword {tok : KdsToken} {toks : List KdsToken} {stmt : KdsStmt}
    (h : Statement (tok :: toks) stmt) : isKeyword stmt.keyword tok := by
  cases h with
  | create_table htok _ => exact htok
  | insert htok _ => exact htok
  | select htok _ => exact htok
  | show_ htok hshow =>
    cases hshow with
    | meta_ _ _ => exact htok
    | alloc _ _ => exact htok

/-- The statements whose keyword is the one of the first token. -/
theorem statement_of_keyword {α : Type} {p : SqlParser α} {D : List KdsToken → α → Prop}
    {f : α → KdsStmt} (tok : KdsToken) (hp : Recognises KdsLexer.tokens p D AtEnd)
    (h : ∀ used stmt, Statement (tok :: used) stmt ↔ ∃ a, D used a ∧ stmt = f a) :
    Recognises KdsLexer.tokens (p >>= fun a => pure (f a))
      (fun used stmt => Statement (tok :: used) stmt) AtEnd := by
  have hpure : ∀ a, Recognises KdsLexer.tokens (pure (f a) : SqlParser KdsStmt)
      (fun used stmt => used = [] ∧ stmt = f a) AtEnd :=
    fun a => (pure_recognises (f a)).congr (fun _ _ => Iff.rfl) fun _ _ => trivial
  have hseq := hp.bind hpure (by
    rintro a used stmt rest ⟨rfl, _⟩ hrest
    exact hrest)
  apply hseq.congr _ fun _ h => h
  intro used stmt
  rw [h used stmt]
  constructor
  · rintro ⟨a, hD, rfl⟩
    exact ⟨used, [], a, (List.append_nil _).symm, hD, rfl, rfl⟩
  · rintro ⟨used', _, a, rfl, hD, rfl, rfl⟩
    rw [List.append_nil]
    exact ⟨a, hD, rfl⟩

theorem parseStatement_recognises (tok : KdsToken) :
    Recognises KdsLexer.tokens (parseStatement tok)
      (fun used stmt => Statement (tok :: used) stmt) AtEnd := by
  unfold parseStatement
  by_cases heof : tok.type = .eof
  · rw [if_pos heof]
    apply throw_recognises
    intro used stmt h
    exact absurd (heof.symm.trans h.keyword.1) (by decide)
  rw [if_neg heof]
  by_cases htype : tok.type = .ident
  · rw [if_neg fun h => h htype]
    -- a keyword that is not the token's own starts no statement
    have hno : ∀ {kw kw' : CString}, strcaseEq tok.text kw → isKeyword kw' tok →
        kw.bytes.map tolower ≠ kw'.bytes.map tolower → False :=
      fun hkw hkw' hne => hne (isKeyword_unique ⟨htype, hkw⟩ hkw')
    by_cases hcreate : strcaseEq tok.text kwCREATE
    · rw [if_pos hcreate]
      apply statement_of_keyword tok parse_create_table_recognises
      intro used stmt
      constructor
      · intro h
        cases h with
        | create_table _ h => exact ⟨_, h, rfl⟩
        | insert h _ => exact (hno hcreate h (by decide)).elim
        | select h _ => exact (hno hcreate h (by decide)).elim
        | show_ h _ => exact (hno hcreate h (by decide)).elim
      · rintro ⟨a, h, rfl⟩
        exact .create_table ⟨htype, hcreate⟩ h
    rw [if_neg hcreate]
    by_cases hinsert : strcaseEq tok.text kwINSERT
    · rw [if_pos hinsert]
      apply statement_of_keyword tok parse_insert_recognises
      intro used stmt
      constructor
      · intro h
        cases h with
        | create_table h _ => exact (hcreate h.2).elim
        | insert _ h => exact ⟨_, h, rfl⟩
        | select h _ => exact (hno hinsert h (by decide)).elim
        | show_ h _ => exact (hno hinsert h (by decide)).elim
      · rintro ⟨a, h, rfl⟩
        exact .insert ⟨htype, hinsert⟩ h
    rw [if_neg hinsert]
    by_cases hselect : strcaseEq tok.text kwSELECT
    · rw [if_pos hselect]
      apply statement_of_keyword tok parse_select_recognises
      intro used stmt
      constructor
      · intro h
        cases h with
        | create_table h _ => exact (hcreate h.2).elim
        | insert h _ => exact (hinsert h.2).elim
        | select _ h => exact ⟨_, h, rfl⟩
        | show_ h _ => exact (hno hselect h (by decide)).elim
      · rintro ⟨a, h, rfl⟩
        exact .select ⟨htype, hselect⟩ h
    rw [if_neg hselect]
    by_cases hshow : strcaseEq tok.text kwSHOW
    · rw [if_pos hshow]
      apply parse_show_recognises.congr _ fun _ h => h
      intro used stmt
      constructor
      · intro h
        cases h with
        | create_table h _ => exact (hcreate h.2).elim
        | insert h _ => exact (hinsert h.2).elim
        | select h _ => exact (hselect h.2).elim
        | show_ _ h => exact h
      · exact fun h => .show_ ⟨htype, hshow⟩ h
    · rw [if_neg hshow]
      apply throw_recognises
      intro used stmt h
      cases h with
      | create_table h _ => exact hcreate h.2
      | insert h _ => exact hinsert h.2
      | select h _ => exact hselect h.2
      | show_ h _ => exact hshow h.2
  · rw [if_pos htype]
    apply throw_recognises
    intro used stmt h
    exact htype h.keyword.1

/-! ## Section 5: The parser -/

theorem tokens_head_ne_eof {l : KdsLexer} {tok : KdsToken} {toks : List KdsToken}
    (h : l.tokens = tok :: toks) : tok.type ≠ .eof := by
  unfold KdsLexer.tokens at h
  cases hpeek : l.peek with
  | none =>
    rw [hpeek] at h
    rcases lexTokens_cases l.pos with ⟨_, hnil⟩ | ⟨htype, hcons⟩
    · rw [hnil] at h
      cases h
    · rw [hcons] at h
      obtain ⟨rfl, _⟩ := List.cons.inj h
      exact htype
  | some tok' =>
    rw [hpeek] at h
    dsimp only at h
    by_cases heof : tok'.type = .eof
    · rw [if_pos heof] at h
      cases h
    · rw [if_neg heof] at h
      obtain ⟨rfl, _⟩ := List.cons.inj h
      exact heof

theorem parseEnd_ok {l l' : KdsLexer} {u : PUnit} (h : parseEnd l = .ok (u, l')) : l.tokens = [] := by
  obtain ⟨tail, l₁, hpeek, htail⟩ := bind_ok h
  cases hl : l.tokens with
  | nil => rfl
  | cons tok toks =>
    obtain ⟨l₂, hpeek', _⟩ := sqlSource.peek_cons hl
    rw [hpeek] at hpeek'
    obtain ⟨rfl, rfl⟩ := Prod.mk.inj (Except.ok.inj hpeek')
    rw [if_neg (tokens_head_ne_eof hl)] at htail
    cases htail

theorem parseEnd_of_nil {l : KdsLexer} (h : l.tokens = []) : ∃ l', parseEnd l = .ok ((), l') := by
  obtain ⟨l', hpeek, _⟩ := sqlSource.peek_nil h
  unfold parseEnd
  rw [bind_eq _ hpeek]
  exact ⟨l', rfl⟩

theorem statement_recognises :
    Recognises KdsLexer.tokens (nextToken >>= parseStatement) Statement AtEnd := by
  have heof : ∀ l stmt l', parseStatement eofToken l ≠ .ok (stmt, l') := by
    intro l stmt l' h
    cases h
  apply (sqlSource.token parseStatement_recognises heof).congr _ fun _ h => h
  intro used stmt
  constructor
  · intro h
    cases used with
    | nil => cases h
    | cons tok used => exact ⟨tok, used, rfl, h⟩
  · rintro ⟨tok, used', rfl, h⟩
    exact h

/-- The whole text is one statement. -/
theorem parseSql_iff (sql : CString) (stmt : KdsStmt) :
    (∃ l, parseSql (lexer_init sql) = .ok (stmt, l)) ↔ Statement (lexTokens sql.bytes) stmt := by
  have hassoc : parseSql = (nextToken >>= parseStatement) >>= fun stmt =>
      parseEnd >>= fun _ => pure stmt := by
    unfold parseSql
    rw [bind_assoc]
  have htokens : (lexer_init sql).tokens = lexTokens sql.bytes := rfl
  rw [hassoc]
  constructor
  · rintro ⟨l, h⟩
    obtain ⟨stmt', l₁, hstmt, hend⟩ := bind_ok h
    obtain ⟨_, l₂, htail, hpure⟩ := bind_ok hend
    obtain ⟨rfl, _⟩ := Prod.mk.inj (Except.ok.inj hpure)
    obtain ⟨used, hused, hD⟩ := statement_recognises.sound hstmt
    rw [parseEnd_ok htail, List.append_nil, htokens] at hused
    rw [hused]
    exact hD
  · intro h
    obtain ⟨l₁, hstmt, hl₁⟩ := @Recognises.complete _ _ _ _ _ _ _ _ statement_recognises
      (lexer_init sql) _ _ [] h rfl (by rw [htokens, List.append_nil])
    obtain ⟨l₂, hend⟩ := parseEnd_of_nil hl₁
    refine ⟨l₂, ?_⟩
    rw [bind_eq _ hstmt, bind_eq _ hend]
    rfl

/-- **The parser accepts its grammar**: it returns the statement that the tokens of the
    text are, and `-EINVAL` if they are none. -/
theorem kds_parse_accepts (sql : CString) (err_buf_size : Nat) :
    (∀ stmt, (kds_parse sql err_buf_size).1 = .ok stmt ↔ Statement (lexTokens sql.bytes) stmt) ∧
      ((kds_parse sql err_buf_size).1 = .error .EINVAL ↔
        ∀ stmt, ¬ Statement (lexTokens sql.bytes) stmt) := by
  have hparse := parseSql_iff sql
  unfold kds_parse
  cases hsql : parseSql (lexer_init sql) with
  | error msg =>
    have hnone : ∀ stmt, ¬ Statement (lexTokens sql.bytes) stmt := by
      intro stmt h
      obtain ⟨l, hok⟩ := (hparse stmt).mpr h
      rw [hsql] at hok
      cases hok
    constructor
    · intro stmt
      constructor
      · intro h
        cases h
      · exact fun h => (hnone stmt h).elim
    · exact ⟨fun _ => hnone, fun _ => rfl⟩
  | ok out =>
    obtain ⟨stmt, l⟩ := out
    have hstmt := (hparse stmt).mp ⟨l, hsql⟩
    constructor
    · intro stmt'
      constructor
      · intro h
        obtain rfl := Except.ok.inj h
        exact hstmt
      · intro h
        obtain ⟨l', hok⟩ := (hparse stmt').mpr h
        rw [hsql] at hok
        obtain ⟨rfl, _⟩ := Prod.mk.inj (Except.ok.inj hok)
        rfl
    · constructor
      · intro h
        cases h
      · exact fun h => (h stmt hstmt).elim

end Kds
