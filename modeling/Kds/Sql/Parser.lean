import Kds.Btree.Ops
import Kds.Lib.Recognise
import Kds.Sql.Lexer

/-! # The parser

    `kds_parse` and the functions it is made of, one for each rule of the
    grammar. They share the lexer and stop at the first error, whose message
    goes into the caller's buffer; an error here is its message. The union of
    statements is a sum, and an array with its count is a list.
-/

open Bytes Recognise

namespace Kds

/-! ## Section 1: Statements -/

abbrev KDS_PARSER_NAME_MAX : Nat := 64
abbrev KDS_PARSER_MAX_COLS : Nat := 32
abbrev KDS_PARSER_MAX_VALS : Nat := 32
abbrev KDS_PARSER_MAX_CONDS : Nat := 16

/-- `kds_ast_val_t`. -/
inductive KdsAstVal where
  | int (int_val : Int)
  | str (str_val : CString)
  | null
  deriving DecidableEq

/-- `kds_ast_col_def_t`. -/
structure KdsAstColDef where
  name : CString
  type_val : KdsTypeVal
  len : Nat
  deriving DecidableEq

/-- `kds_cond_op_t`. -/
inductive KdsCondOp where
  | eq
  | neq
  | lt
  | lte
  | gt
  | gte
  deriving DecidableEq, Repr

/-- `kds_ast_cond_t`. -/
structure KdsAstCond where
  col_name : CString
  op : KdsCondOp
  val : KdsAstVal
  deriving DecidableEq

/-- `kds_stmt_create_table_t`. -/
structure KdsStmtCreateTable where
  table_name : CString
  cols : List KdsAstColDef
  clustered : ClusteredType
  deriving DecidableEq

/-- `kds_stmt_insert_t`. -/
structure KdsStmtInsert where
  table_name : CString
  values : List KdsAstVal
  deriving DecidableEq

/-- `kds_stmt_select_t`. -/
structure KdsStmtSelect where
  table_name : CString
  has_where : Bool
  conds : List KdsAstCond
  deriving DecidableEq

/-- `kds_stmt_t`. -/
inductive KdsStmt where
  | create_table (stmt : KdsStmtCreateTable)
  | insert (stmt : KdsStmtInsert)
  | select (stmt : KdsStmtSelect)
  | show_meta
  | show_alloc
  deriving DecidableEq

/-! ## Section 2: Helpers -/

/-- A parse function: the lexer, and the message of the error if there is one. -/
abbrev SqlParser := Parser KdsLexer (List UInt8)

def nextToken : SqlParser KdsToken := fun l => .ok (lexer_next l)

def peekToken : SqlParser KdsToken := fun l => .ok (lexer_peek l)

/-- `'%s'`. -/
def quoted (text : List UInt8) : List UInt8 := 39 :: text ++ [39]

/-- The token in a message. -/
def KdsToken.shown (tok : KdsToken) : List UInt8 :=
  quoted (if tok.type = .eof then ascii "<end of input>" else tok.text.bytes)

def gotInstead (expected : List UInt8) (tok : KdsToken) : List UInt8 :=
  ascii "expected " ++ expected ++ ascii ", got " ++ tok.shown

/-- A keyword, in any case. -/
def isKeyword (keyword : CString) (tok : KdsToken) : Prop :=
  tok.type = .ident ∧ strcaseEq tok.text keyword = true

instance (keyword : CString) : DecidablePred (isKeyword keyword) := fun tok =>
  inferInstanceAs (Decidable (tok.type = .ident ∧ strcaseEq tok.text keyword = true))

def expect_keyword (keyword : CString) : SqlParser PUnit := do
  let tok ← nextToken
  if isKeyword keyword tok then pure ()
  else throw (gotInstead (quoted keyword.bytes) tok)

def expect_token (type : KdsTokenType) (desc : List UInt8) : SqlParser PUnit := do
  let tok ← nextToken
  if tok.type = type then pure () else throw (gotInstead desc tok)

/-- `strncpy` into an array of `buf_size` characters, and a NUL at its end. -/
def strncpyTo (buf_size : Nat) (text : CString) : CString :=
  CString.ofBuffer (text.bytes.take (buf_size - 1))

def parse_ident (buf_size : Nat) : SqlParser CString := do
  let tok ← nextToken
  if tok.type = .ident then pure (strncpyTo buf_size tok.text)
  else throw (gotInstead (ascii "identifier") tok)

/-- `peek` is consumed if it is a semicolon. -/
def semicolonClause (peek : KdsToken) : SqlParser PUnit :=
  if peek.type = .semicolon then do
    let _ ← nextToken
    pure ()
  else pure ()

def consume_optional_semicolon : SqlParser PUnit := do
  let peek ← peekToken
  semicolonClause peek

def parse_value : SqlParser KdsAstVal := do
  let tok ← nextToken
  match tok.type with
  | .int_lit => pure (.int tok.int_val)
  | .str_lit => pure (.str (strncpyTo KDS_PARSER_VAL_MAX tok.text))
  | .null => pure .null
  | _ => throw (gotInstead (ascii "value (integer, 'string', or NULL)") tok)

def parse_cond_op : SqlParser KdsCondOp := do
  let tok ← nextToken
  match tok.type with
  | .eq => pure .eq
  | .neq => pure .neq
  | .lt => pure .lt
  | .lte => pure .lte
  | .gt => pure .gt
  | .gte => pure .gte
  | _ => throw (gotInstead (ascii "comparison operator (=, !=, <, <=, >, >=)") tok)

/-! ## Section 3: Statement parsers -/

def kwTABLE : CString := ⟨ascii "TABLE", by decide⟩
def kwHEAP : CString := ⟨ascii "HEAP", by decide⟩
def kwBTREE : CString := ⟨ascii "BTREE", by decide⟩
def kwINTO : CString := ⟨ascii "INTO", by decide⟩
def kwVALUES : CString := ⟨ascii "VALUES", by decide⟩
def kwFROM : CString := ⟨ascii "FROM", by decide⟩
def kwWHERE : CString := ⟨ascii "WHERE", by decide⟩
def kwAND : CString := ⟨ascii "AND", by decide⟩
def kwMETA : CString := ⟨ascii "META", by decide⟩
def kwALLOC : CString := ⟨ascii "ALLOC", by decide⟩
def kwCREATE : CString := ⟨ascii "CREATE", by decide⟩
def kwINSERT : CString := ⟨ascii "INSERT", by decide⟩
def kwSELECT : CString := ⟨ascii "SELECT", by decide⟩
def kwSHOW : CString := ⟨ascii "SHOW", by decide⟩

/-- One turn of the loop over the columns. -/
def parseColumn : SqlParser KdsAstColDef := do
  let name ← parse_ident KDS_PARSER_NAME_MAX
  let type_name ← parse_ident KDS_PARSER_NAME_MAX
  match kds_type_lookup_by_name type_name with
  | none => throw (ascii "unknown column type " ++ quoted type_name.bytes)
  | some type_desc => pure ⟨name, type_desc.type_val, type_desc.fixed_len⟩

def parseColumns : SqlParser (List KdsAstColDef) :=
  sepLoop nextToken peekToken parseColumn (fun tok => tok.type = .comma)
    (ascii "too many columns (max 32)") KDS_PARSER_MAX_COLS []

/-- The storage clause, if `peek` starts one. -/
def storageClause (peek : KdsToken) : SqlParser ClusteredType :=
  if peek.type = .ident then
    if strcaseEq peek.text kwHEAP then do
      let _ ← nextToken
      pure .heap
    else if strcaseEq peek.text kwBTREE then do
      let _ ← nextToken
      pure .btree
    else pure .heap
  else pure .heap

def parse_create_table : SqlParser KdsStmtCreateTable := do
  expect_keyword kwTABLE
  let table_name ← parse_ident KDS_PARSER_NAME_MAX
  expect_token .lparen (quoted (ascii "("))
  let cols ← parseColumns
  expect_token .rparen (quoted (ascii ")"))
  if cols = [] then throw (ascii "CREATE TABLE requires at least one column")
  else do
    let peek ← peekToken
    let clustered ← storageClause peek
    consume_optional_semicolon
    pure ⟨table_name, cols, clustered⟩

def parseValues : SqlParser (List KdsAstVal) :=
  sepLoop nextToken peekToken parse_value (fun tok => tok.type = .comma)
    (ascii "too many values (max 32)") KDS_PARSER_MAX_VALS []

def parse_insert : SqlParser KdsStmtInsert := do
  expect_keyword kwINTO
  let table_name ← parse_ident KDS_PARSER_NAME_MAX
  expect_keyword kwVALUES
  expect_token .lparen (quoted (ascii "("))
  let values ← parseValues
  expect_token .rparen (quoted (ascii ")"))
  if values = [] then throw (ascii "INSERT VALUES requires at least one value")
  else do
    consume_optional_semicolon
    pure ⟨table_name, values⟩

def parse_one_cond : SqlParser KdsAstCond := do
  let col_name ← parse_ident KDS_PARSER_NAME_MAX
  let op ← parse_cond_op
  let val ← parse_value
  pure ⟨col_name, op, val⟩

def parseConds : SqlParser (List KdsAstCond) :=
  sepLoop nextToken peekToken parse_one_cond (isKeyword kwAND)
    (ascii "too many WHERE conditions (max 16)") KDS_PARSER_MAX_CONDS []

/-- The WHERE clause, if `peek` starts one. -/
def whereClause (peek : KdsToken) : SqlParser (Bool × List KdsAstCond) :=
  if isKeyword kwWHERE peek then do
    let _ ← nextToken
    let conds ← parseConds
    pure (true, conds)
  else pure (false, [])

/-- The list of a SELECT: only `*`. -/
def selectList : SqlParser PUnit := do
  let tok ← nextToken
  if tok.type = .star then pure ()
  else throw (ascii "only SELECT * is supported, got " ++ quoted tok.text.bytes)

def parse_select : SqlParser KdsStmtSelect := do
  selectList
  expect_keyword kwFROM
  let table_name ← parse_ident KDS_PARSER_NAME_MAX
  let peek ← peekToken
  let clause ← whereClause peek
  consume_optional_semicolon
  pure ⟨table_name, clause.1, clause.2⟩

/-- The statement of `SHOW tok`. -/
def showTarget (tok : KdsToken) : SqlParser KdsStmt :=
  if tok.type = .ident then
    if strcaseEq tok.text kwMETA then do
      consume_optional_semicolon
      pure .show_meta
    else if strcaseEq tok.text kwALLOC then do
      consume_optional_semicolon
      pure .show_alloc
    else
      throw (ascii "unknown SHOW target " ++ quoted tok.text.bytes ++
        ascii " (expected META or ALLOC)")
  else throw (ascii "expected META or ALLOC after SHOW, got " ++ quoted tok.text.bytes)

def parse_show : SqlParser KdsStmt := do
  let tok ← nextToken
  showTarget tok

/-! ## Section 4: Entry point -/

/-- The statement behind its first token. -/
def parseStatement (tok : KdsToken) : SqlParser KdsStmt :=
  if tok.type = .eof then throw (ascii "empty statement")
  else if tok.type ≠ .ident then throw (ascii "expected SQL keyword, got " ++ quoted tok.text.bytes)
  else if strcaseEq tok.text kwCREATE then do
    let stmt ← parse_create_table
    pure (.create_table stmt)
  else if strcaseEq tok.text kwINSERT then do
    let stmt ← parse_insert
    pure (.insert stmt)
  else if strcaseEq tok.text kwSELECT then do
    let stmt ← parse_select
    pure (.select stmt)
  else if strcaseEq tok.text kwSHOW then parse_show
  else
    throw (ascii "unknown SQL keyword " ++ quoted tok.text.bytes ++
      ascii " (supported: CREATE, INSERT, SELECT, SHOW)")

/-- Nothing but the end may follow a statement. -/
def parseEnd : SqlParser PUnit := do
  let tail ← peekToken
  if tail.type = .eof then pure ()
  else throw (ascii "unexpected token " ++ quoted tail.text.bytes ++ ascii " after end of statement")

def parseSql : SqlParser KdsStmt := do
  let tok ← nextToken
  let stmt ← parseStatement tok
  parseEnd
  pure stmt

/-- `kds_parse`: what it returns, and what is in the buffer for the message. -/
def kds_parse (sql : CString) (err_buf_size : Nat) : Except Errno KdsStmt × CString :=
  match parseSql (lexer_init sql) with
  | .error msg => (.error .EINVAL, (scnprintf err_buf_size msg).2)
  | .ok (stmt, _) => (.ok stmt, CString.ofBuffer [])

end Kds
