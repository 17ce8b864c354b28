import Mathlib.Algebra.Group.Nat.Defs
import Mathlib.Data.List.Basic

/-! # Core constants, error codes and page identity

    The constants of `kds.h` and the vocabulary every other module shares:
    page ids, page types and flags, the negative errno values the code
    returns, and the ways an execution can leave the defined part of C
    (`BUG_ON`, `panic`, an index outside a fixed-size array).

    Machine words that are stored and compared keep their C width
    (`UInt64`, `UInt16`, ...). Offsets and lengths that take part in
    arithmetic are `Nat`, with the truncation written out where the C code
    truncates.
-/

namespace Kds

/-! ### Decisions

    A quantifier over what a list or an option holds is decided along these,
    and not over all the values of a fixed-width type, which are finite as well. -/

section decisions

variable {α : Type} {p : α → Prop} [DecidablePred p]

instance (priority := 2000) decidableForallMemList (l : List α) : Decidable (∀ a, a ∈ l → p a) := List.decidableBAll p l

instance (priority := 2000) decidableForallMemOption (o : Option α) :
    Decidable (∀ a, a ∈ o → p a) :=
  Option.decidableForallMem o

end decisions

/-! ### Sizes -/

@[simp] def KDS_BLKDEV_SECTOR_SIZE : Nat := 512

@[simp] def KDS_PAGE_SIZE : Nat := 8 * 1024

@[simp] def META_SUPERBLOCK_SECTOR : Nat := 2048

@[simp] def KDS_SYS_RESERVED_PAGES : Nat := 128

/-- Sectors occupied by one logical page. -/
@[simp] def KDS_PAGE_SECTORS : Nat := KDS_PAGE_SIZE / KDS_BLKDEV_SECTOR_SIZE

/-- `sizeof(kds_page_hdr_t)`: type (4), crc (4), flags (1), reserved1 (32), packed. -/
@[simp] def KDS_PAGE_HDR_SIZE : Nat := 41

/-! ### Identities -/

/-- `kds_page_id_t`. -/
abbrev PageId := UInt64

/-- `kds_tuple_id_t`: a btree key. -/
abbrev TupleId := UInt64

/-- `sector_t`. -/
abbrev Sector := UInt64

/-! ### Page types and flags -/

/-- `kds_page_type_t`, the values `KDS_PAGE_TYPE_*` of `kds.h`. -/
inductive PageType where
  | invalid
  | btreeRoot
  | btreeInternal
  | btreeData
  | heap
  | undo
  | wal
  | toast
  deriving DecidableEq, Repr

/-- The on-disk code of a page type. -/
def PageType.code : PageType → UInt32
  | .invalid => 0
  | .btreeRoot => 1
  | .btreeInternal => 2
  | .btreeData => 3
  | .heap => 4
  | .undo => 5
  | .wal => 6
  | .toast => 7

@[simp] def KDS_PAGE_FLAG_ALLOC : UInt8 := 1
@[simp] def KDS_PAGE_FLAG_INIT : UInt8 := 2
@[simp] def KDS_PAGE_FLAG_FREE : UInt8 := 4
@[simp] def KDS_PAGE_FLAG_DIRTY : UInt8 := 8

/-! ### Errors -/

/-- The errno values the modelled functions return (negated, in C). -/
inductive Errno where
  | ENOENT
  | EIO
  | E2BIG
  | ENOMEM
  | EEXIST
  | ENODEV
  | EINVAL
  | ENOSPC
  | EMSGSIZE
  | ERANGE
  deriving DecidableEq, Repr

/-- The number of an errno value. -/
def Errno.code : Errno → Int
  | ENOENT => 2
  | EIO => 5
  | E2BIG => 7
  | ENOMEM => 12
  | EEXIST => 17
  | ENODEV => 19
  | EINVAL => 22
  | ENOSPC => 28
  | EMSGSIZE => 90
  | ERANGE => 34

/-- An execution that does not return to its caller: a failed `BUG_ON`, a
    `panic`, an access outside a fixed-size array or through a null pointer. -/
inductive Fault where
  | bugOn
  | panic
  | outOfBounds
  | nullPointer
  deriving DecidableEq, Repr

end Kds
