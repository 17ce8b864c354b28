import Kds.Dshell.Answers

/-! # Sessions

    What the clients of the device can rely on over a whole session: the
    tables hold the rows that were answered with "OK", the next `INSERT` is
    answered by them, `SELECT` lists them, and the reads of a client hand out
    its response piece by piece.
-/

open Bytes Buffer Decimal Fallible Lts

namespace Kds

/-! ## Section 1: Tables and answers -/

section answers

variable {crc32c : UInt32 → List UInt8 → UInt32} {s : Database}

end answers

/-! ## Section 2: Reads -/

section reads

variable {client : KdsDshellClient}

end reads

/-! ## Section 3: `SELECT` -/

/-- Bytes without a NUL. -/
abbrev NoNul (bs : List UInt8) : Prop := (0 : UInt8) ∉ bs

section listing

variable {p : Pool} {texts : List (List UInt8)} {pages front : List PageId}
  {cols : List KdsSysColumn} {out text : List UInt8} {s : ScanOut}
  {run : Except Fault (Except Errno UInt32 × ScanOut × Pool)}

theorem noNul_rowTextFrom {texts : List (List UInt8)} (h : ∀ text ∈ texts, NoNul text) (i : Nat)
    (cols : List KdsSysColumn) : NoNul (rowTextFrom i cols texts) := by
  induction cols generalizing i texts with
  | nil => exact List.not_mem_nil
  | cons col cols ih =>
    cases texts with
    | nil => exact List.not_mem_nil
    | cons text texts =>
      have hsep : NoNul (sepText i) := by
        unfold sepText
        split
        · decide
        · decide
      have hname := (CatalogName.string col.name).no_nul
      have htext := h text List.mem_cons_self
      have hrest := ih (fun t ht => h t (List.mem_cons_of_mem _ ht)) (i + 1)
      unfold rowTextFrom columnText NoNul
      simp only [List.mem_append, hsep, hname, htext, hrest, or_false, false_or]
      decide

/-- What is shown of values that came through SQL has no NUL in it. -/
theorem EncodedAs.noNul {vals : List KdsAstVal} {parts : List (KdsTypeDesc × List UInt8)}
    (h : EncodedAs cols vals parts) : ∀ part ∈ parts, NoNul (showText part.1 part.2) := by
  have hsized := h.sized.2
  induction h with
  | nil => exact fun part hpart => absurd hpart List.not_mem_nil
  | @cons col cols val vals desc value parts size hlook henc _ ih =>
    intro part hpart
    rcases List.mem_cons.mp hpart with rfl | hpart
    · obtain ⟨hdesc, hsize, -⟩ := hsized _ List.mem_cons_self
      have hto := decodesTo_showText hdesc hsize
      by_cases hfix : desc.fixed_len = 0
      · obtain ⟨-, hbytes, -⟩ := encode_sized hdesc henc
        rw [← hto.copied hfix, hbytes hfix]
        exact (valStr val).no_nul
      · exact hto.printed hfix
    · exact ih (fun part' hmem => hsized part' (List.mem_cons_of_mem _ hmem)) part hpart

/-- A row that was encoded for these columns decodes, and shows no NUL. -/
theorem EncodedAs.shown {vals : List KdsAstVal} {parts : List (KdsTypeDesc × List UInt8)}
    (h : EncodedAs cols vals parts) : (rowTexts (rowBytes parts) cols 0).isSome ∧
      NoNul (shownRow cols (rowBytes parts)) := by
  have hrow : rowTexts (rowBytes parts) cols 0 = some (parts.map fun part => showText part.1 part.2,
      (rowBytes parts).length) := rowTexts_rowBytes h []
  rw [hrow]
  refine ⟨rfl, ?_⟩
  unfold shownRow
  rw [hrow]
  change NoNul (rowText cols (parts.map fun part => showText part.1 part.2))
  rw [← rowTextFrom_zero]
  refine noNul_rowTextFrom (fun text htext => ?_) 0 cols
  obtain ⟨part, hpart, rfl⟩ := List.mem_map.mp htext
  exact h.noNul part hpart

end listing

section select

variable {crc32c : UInt32 → List UInt8 → UInt32} {s : Database} {A : Catalog} {hi : Nat}
  {chain : UInt64 → List PageId} {c : CatalogEnv} {rows : UInt64 → List (List UInt8)}

/-- A typed row decodes, and shows no NUL. -/
theorem Catalog.Typed.shown {oid : UInt64} {bs : List UInt8} (h : A.Typed oid bs) :
    (rowTexts bs (A.schemaOf oid) 0).isSome ∧ NoNul (shownRow (A.schemaOf oid) bs) := by
  obtain ⟨vals, parts, henc, rfl⟩ := h
  exact henc.shown

end select

/-! ## Section 4: A session -/

end Kds
