import Kds.Lib.Packed
import Kds.Heap.Undo
import Kds.Types

/-! # Catalog rows

    The rows of `sys.objects`, `sys.tables`, `sys.columns` and `sys.types`:
    packed structures that are copied into and out of heap tuples, and the
    fixed-size names in them.
-/

open Bytes

namespace Kds

/-! ## Section 1: Names -/

abbrev KDS_CATALOG_NAME_MAX : Nat := 64

/-- `char name[KDS_CATALOG_NAME_MAX]`. -/
abbrev CatalogName := Fin KDS_CATALOG_NAME_MAX → UInt8

def CatalogName.bytes (name : CatalogName) : List UInt8 := List.ofFn name

@[simp] theorem CatalogName.length_bytes (name : CatalogName) : name.bytes.length = 64 :=
  List.length_ofFn

/-- A name array in a buffer. -/
def getName (bs : List UInt8) : CatalogName × List UInt8 := getArray KDS_CATALOG_NAME_MAX bs

@[simp] theorem getName_append (name : CatalogName) (rest : List UInt8) :
    getName (name.bytes ++ rest) = (name, rest) := getArray_append name rest

/-- `set_name` on a zeroed or unused array: `strncpy` of 63 characters, padded
    with NULs, and a NUL at the end. -/
def set_name (src : CString) : CatalogName := fun i =>
  if i.val < KDS_CATALOG_NAME_MAX - 1 then src.bytes.getD i 0 else 0

/-- The string in a name array: up to its first NUL, or all of it. -/
def CatalogName.string (name : CatalogName) : CString := CString.ofBuffer name.bytes

/-- `!strncmp(s, t, n)`. -/
def strncmpEq (s t : CString) (n : Nat) : Bool := s.bytes.take n == t.bytes.take n

theorem set_name_string (src : CString) :
    (CatalogName.string (set_name src)).bytes = src.bytes.take (KDS_CATALOG_NAME_MAX - 1) := by
  have hlist : CatalogName.bytes (set_name src) =
      src.bytes.take (KDS_CATALOG_NAME_MAX - 1) ++
        List.replicate (KDS_CATALOG_NAME_MAX - min (KDS_CATALOG_NAME_MAX - 1) src.bytes.length) 0 := by
    apply List.ext_getElem
    · rw [CatalogName.length_bytes, List.length_append, List.length_take, List.length_replicate]
      simp only [KDS_CATALOG_NAME_MAX]
      omega
    · intro i hi hi'
      rw [CatalogName.length_bytes] at hi
      simp only [CatalogName.bytes, List.getElem_ofFn, set_name]
      by_cases hlt : i < (src.bytes.take (KDS_CATALOG_NAME_MAX - 1)).length
      · rw [List.getElem_append_left hlt, List.getElem_take]
        have hi63 : i < KDS_CATALOG_NAME_MAX - 1 ∧ i < src.bytes.length := by
          rw [List.length_take] at hlt
          omega
        rw [if_pos hi63.1, List.getD_eq_getElem _ _ hi63.2]
      · rw [List.getElem_append_right (by omega), List.getElem_replicate]
        rw [List.length_take] at hlt
        by_cases h63 : i < KDS_CATALOG_NAME_MAX - 1
        · rw [if_pos h63, List.getD_eq_default _ _ (by omega)]
        · rw [if_neg h63]
  have hnul : ∀ c ∈ src.bytes.take (KDS_CATALOG_NAME_MAX - 1), (c != 0) = true := by
    intro c hc
    have hmem := List.mem_of_mem_take hc
    simp only [bne_iff_ne, ne_eq]
    rintro rfl
    exact src.no_nul hmem
  unfold CatalogName.string CString.ofBuffer
  rw [hlist]
  dsimp only
  rw [List.takeWhile_append_of_pos hnul]
  have hzeros : ∀ k, (List.replicate k (0 : UInt8)).takeWhile (· != 0) = [] := by
    intro k
    cases k with
    | zero => rfl
    | succ k => rw [List.replicate_succ, List.takeWhile_cons_of_neg (by decide)]
  rw [hzeros, List.append_nil]

/-! ## Section 2: Rows -/

/-- `kds_sys_object_t`. -/
structure KdsSysObject where
  oid : UInt64
  namespace_oid : UInt64
  type_oid : UInt64
  rel_id : UInt64
  name : CatalogName

/-- `kds_sys_table_t`. -/
structure KdsSysTable where
  oid : UInt64
  namespace_oid : UInt64
  name : CatalogName
  desc_page_id : PageId
  clustered_type : UInt8

/-- `kds_sys_column_t`. -/
structure KdsSysColumn where
  oid : UInt64
  rel_id : UInt64
  pos : UInt32
  name : CatalogName
  type_val : UInt32
  len : UInt32
  notnull : Bool

/-- `kds_sys_type_t`. -/
structure KdsSysType where
  oid : UInt64
  name : CatalogName
  type_val : UInt32
  len : UInt32

def KdsSysObject.bytes (row : KdsSysObject) : List UInt8 :=
  u64Bytes row.oid ++ (u64Bytes row.namespace_oid ++ (u64Bytes row.type_oid ++
    (u64Bytes row.rel_id ++ (row.name.bytes ++ []))))

def KdsSysTable.bytes (row : KdsSysTable) : List UInt8 :=
  u64Bytes row.oid ++ (u64Bytes row.namespace_oid ++ (row.name.bytes ++
    (u64Bytes row.desc_page_id ++ [row.clustered_type])))

def KdsSysColumn.bytes (row : KdsSysColumn) : List UInt8 :=
  u64Bytes row.oid ++ (u64Bytes row.rel_id ++ (u32Bytes row.pos ++ (row.name.bytes ++
    (u32Bytes row.type_val ++ (u32Bytes row.len ++ [if row.notnull then 1 else 0])))))

def KdsSysType.bytes (row : KdsSysType) : List UInt8 :=
  u64Bytes row.oid ++ (row.name.bytes ++ (u32Bytes row.type_val ++ (u32Bytes row.len ++ [])))

/-- A `kds_sys_object_t` in a buffer. -/
def KdsSysObject.ofBytes (bs : List UInt8) : KdsSysObject :=
  let (oid, bs) := getU64 bs
  let (namespace_oid, bs) := getU64 bs
  let (type_oid, bs) := getU64 bs
  let (rel_id, bs) := getU64 bs
  let (name, _) := getName bs
  ⟨oid, namespace_oid, type_oid, rel_id, name⟩

def KdsSysTable.ofBytes (bs : List UInt8) : KdsSysTable :=
  let (oid, bs) := getU64 bs
  let (namespace_oid, bs) := getU64 bs
  let (name, bs) := getName bs
  let (desc_page_id, bs) := getU64 bs
  let (clustered_type, _) := getU8 bs
  ⟨oid, namespace_oid, name, desc_page_id, clustered_type⟩

def KdsSysColumn.ofBytes (bs : List UInt8) : KdsSysColumn :=
  let (oid, bs) := getU64 bs
  let (rel_id, bs) := getU64 bs
  let (pos, bs) := getU32 bs
  let (name, bs) := getName bs
  let (type_val, bs) := getU32 bs
  let (len, bs) := getU32 bs
  let (notnull, _) := getU8 bs
  ⟨oid, rel_id, pos, name, type_val, len, notnull != 0⟩

@[simp] theorem KdsSysObject.length_bytes (row : KdsSysObject) : row.bytes.length = 96 := by
  simp [KdsSysObject.bytes]

@[simp] theorem KdsSysTable.length_bytes (row : KdsSysTable) : row.bytes.length = 89 := by
  simp [KdsSysTable.bytes]

@[simp] theorem KdsSysColumn.length_bytes (row : KdsSysColumn) : row.bytes.length = 93 := by
  simp [KdsSysColumn.bytes]

@[simp] theorem KdsSysType.length_bytes (row : KdsSysType) : row.bytes.length = 80 := by
  simp [KdsSysType.bytes]

/-- Every row reads back. -/
@[simp] theorem KdsSysObject.ofBytes_bytes (row : KdsSysObject) :
    KdsSysObject.ofBytes row.bytes = row := by
  simp only [KdsSysObject.ofBytes, KdsSysObject.bytes, getU64_append, getName_append]

@[simp] theorem KdsSysTable.ofBytes_bytes (row : KdsSysTable) :
    KdsSysTable.ofBytes row.bytes = row := by
  simp [KdsSysTable.ofBytes, KdsSysTable.bytes]

@[simp] theorem KdsSysColumn.ofBytes_bytes (row : KdsSysColumn) :
    KdsSysColumn.ofBytes row.bytes = row := by
  obtain ⟨oid, rel_id, pos, name, type_val, len, notnull⟩ := row
  cases notnull <;> simp [KdsSysColumn.ofBytes, KdsSysColumn.bytes]

end Kds
