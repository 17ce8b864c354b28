import Kds.Dshell.Database

/-! # What the clients of the device are told

    The answer to an `INSERT` follows from the rows that were inserted before,
    and says what has become of the row. In every reachable state the tables
    hold what the answers have promised, and a `SELECT` shows it.
-/

open Bytes Buffer Decimal Fallible Lts

namespace Kds

/-! ## Section 1: Responses -/

/-- The response is the text, or as much of it as there is room for. -/
def Answers (resp_buf text : List UInt8) : Prop :=
  resp_buf.length = DSHELL_RESP_MAX ∧ Responds resp_buf (text.take (DSHELL_RESP_MAX - 1))

section responses

variable {out out' text : List UInt8} {c c' : CatalogEnv} {ret ret' : CmdRet}

/-- A print at the start of the buffer. -/
theorem printAt_answers (hout : out.length = DSHELL_RESP_MAX) (text : List UInt8) :
    ∃ n out', printAt out 0 text = .ok (n, out') ∧ Answers out' text := by
  have hprint := @printAt_eq out 0 text (by rw [hout]; decide) (by rw [hout]; decide)
  have htake : text.take (min (out.length - 0 - 1) text.length) = text.take (DSHELL_RESP_MAX - 1) := by
    rw [hout, List.take_eq_take_iff]
    omega
  have hlen : (text.take (DSHELL_RESP_MAX - 1) ++ [0]).length ≤ out.length := by
    rw [List.length_append, List.length_take, List.length_singleton, hout, DSHELL_RESP_MAX]
    omega
  rw [htake] at hprint
  refine ⟨_, _, hprint, ?_, prefix_put _ _⟩
  rw [length_put (by omega), hout]

theorem respond_answers (hout : out.length = DSHELL_RESP_MAX)
    (h : respond out text ret c = .ok (ret', out', c')) : ret' = ret ∧ c' = c ∧ Answers out' text := by
  obtain ⟨n, out₁, hprint, hans⟩ := printAt_answers hout text
  unfold respond at h
  rw [hprint] at h
  obtain ⟨rfl, hrest⟩ := Prod.mk.inj (Except.ok.inj h)
  obtain ⟨rfl, rfl⟩ := Prod.mk.inj hrest
  exact ⟨rfl, rfl, hans⟩

/-- A text that begins with "OK" is a response that does. -/
theorem Answers.saysOk (rest : List UInt8) (h : Answers out' (ascii "OK" ++ rest)) : SaysOk out' := by
  obtain ⟨-, hpre⟩ := h
  refine List.IsPrefix.trans ?_ hpre
  have hlen : (ascii "OK").length ≤ DSHELL_RESP_MAX - 1 := by decide
  rw [List.take_append, List.take_of_length_le hlen, List.append_assoc]
  exact List.prefix_append _ _

/-- A text that begins with "ERR" is a response that does not begin with "OK". -/
theorem Answers.not_saysOk (rest : List UInt8) (h : Answers out' (ascii "ERR" ++ rest)) : ¬ SaysOk out' := by
  obtain ⟨-, hpre⟩ := h
  have hlen : (ascii "ERR").length ≤ DSHELL_RESP_MAX - 1 := by decide
  rw [List.take_append, List.take_of_length_le hlen] at hpre
  intro hok
  obtain ⟨xs, hxs⟩ := hok
  obtain ⟨ys, hys⟩ := hpre
  have hsame := congrArg List.head? (hxs.trans hys.symm)
  simp [ascii] at hsame

end responses

/-! ## Section 2: `INSERT` -/

/-- The answer to an `INSERT` of `row` into the table `name`, with the database behind it. -/
inductive InsertAnswer (A : Catalog) (hi : Nat) (chain : UInt64 → List PageId) (c : CatalogEnv)
    (rows : UInt64 → List (List UInt8)) (name : CString) (oid : UInt64) (row : List UInt8) :
    CmdRet → List UInt8 → CatalogEnv → Prop where
  | timedOut {out' : List UInt8} {c' : CatalogEnv} :
      Answers out' (ascii "ERR exec timed out after 5000ms\n") → DatabaseStep A chain c A hi chain c' rows →
      InsertAnswer A hi chain c rows name oid row .timedOut out' c'
  | tooShort {out' : List UInt8} {c' : CatalogEnv} :
      row.length < 8 → Answers out' (ascii "ERR insert failed: " ++ errnoText .EINVAL ++ ascii "\n") →
      DatabaseStep A chain c A hi chain c' rows →
      InsertAnswer A hi chain c rows name oid row (.error .EINVAL) out' c'
  | duplicate {out' : List UInt8} {c' : CatalogEnv} :
      (∃ old ∈ rows oid, rowPk old = rowPk row) →
      Answers out' (ascii "ERR duplicate primary key in " ++ inQuotes name ++ ascii "\n") →
      DatabaseStep A chain c A hi chain c' rows →
      InsertAnswer A hi chain c rows name oid row (.error .EEXIST) out' c'
  | noPage {out' : List UInt8} {c' : CatalogEnv} :
      (∀ old ∈ rows oid, rowPk old ≠ rowPk row) → c.env.staged = [] →
      Answers out' (ascii "ERR insert failed: " ++ errnoText .ENOSPC ++ ascii "\n") →
      DatabaseStep A chain c A hi chain c' rows →
      InsertAnswer A hi chain c rows name oid row (.error .ENOSPC) out' c'
  | inserted {out' : List UInt8} {c' : CatalogEnv} {chain' : UInt64 → List PageId} (tid : HeapTid) :
      (∀ old ∈ rows oid, rowPk old ≠ rowPk row) →
      Answers out' (ascii "OK inserted into " ++ inQuotes name ++ ascii " at " ++ (ascii "page=" ++
        numeral tid.page_id.toNat ++ ascii " slot=" ++ numeral tid.slot.toNat ++ ascii "\n")) →
      DatabaseStep A chain c A hi chain' c' (Function.update rows oid (rows oid ++ [row])) →
      InsertAnswer A hi chain c rows name oid row .ok out' c'

section insert

variable {crc32c : UInt32 → List UInt8 → UInt32} {A : Catalog} {hi : Nat}
  {chain : UInt64 → List PageId} {c c' : CatalogEnv} {rows : UInt64 → List (List UInt8)}
  {ce : CmdEnv} {name : CString} {rel : RelationHandle} {row_buf out out' : List UInt8}
  {row_len : UInt16} {ret : CmdRet}

theorem bufferOf_read {bs : List UInt8} {n : Nat} (h : n ≤ bs.length) :
    (bufferOf bs).read 0 n = bs.take n := by
  have hread : (bufferOf bs).read 0 bs.length = bs := Mem.read_write_same (fun _ => 0) 0 bs
  rw [← Mem.take_read _ _ h, hread]

/-- A row without room for a key is refused by the first slice. -/
theorem runSlices_short {turns slices : Nat} {exec : HeapInsertExec} {env env' : ExecEnv}
    {exec' : InsertExec} {r : Option ExecResult} {rel : Relation} (hrel : exec.rel = some rel)
    (hkind : rel.kind = .heap) (hlen : exec.data_len < 8)
    (hrun : runSlices crc32c turns slices (.heap exec) env = some (r, exec', env')) :
    env' = env ∧ (r = none ∨ r = some .error ∧ exec'.ret = some .EINVAL) := by
  cases slices with
  | zero =>
    obtain ⟨rfl, rfl, rfl⟩ : none = r ∧ InsertExec.heap exec = exec' ∧ env = env' := by
      simpa [runSlices] using hrun
    exact ⟨rfl, .inl rfl⟩
  | succ slices =>
    have hcall : kds_heap_insert_exec_run crc32c turns exec env = some (.error, exec.fail .EINVAL, env) := by
      unfold kds_heap_insert_exec_run
      rw [hrel]
      dsimp only
      rw [if_neg (not_not.mpr hkind), if_pos hlen]
    simp only [runSlices, kds_exec_run, hcall, Option.map_some] at hrun
    obtain ⟨rfl, rfl, rfl⟩ : some ExecResult.error = r ∧ InsertExec.heap (exec.fail .EINVAL) = exec' ∧
        env = env' := by simpa using hrun
    exact ⟨rfl, .inr ⟨rfl, rfl⟩⟩

/-- What the proc leaves in the buffer has its size. -/
theorem finishText_length {r : Option ExecResult} {exec : InsertExec} (hout : out.length = DSHELL_RESP_MAX)
    (h : finishText r exec out = .ok out') : out'.length = DSHELL_RESP_MAX := by
  cases r with
  | none =>
    obtain ⟨n, out₁, hprint, hans⟩ := printAt_answers hout (ascii "ERR exec timed out after 5000ms\n")
    unfold finishText at h
    rw [hprint] at h
    obtain rfl := Except.ok.inj h
    exact hans.1
  | some r =>
    cases r with
    | error =>
      obtain ⟨n, out₁, hprint, hans⟩ := printAt_answers hout
        (ascii "ERR exec failed: " ++ (exec.ret.map errnoText).getD (numeral 0) ++ ascii "\n")
      unfold finishText at h
      dsimp only at h
      rw [hprint] at h
      obtain rfl := Except.ok.inj h
      exact hans.1
    | cont =>
      obtain rfl := Except.ok.inj h
      exact hout
    | done =>
      obtain rfl := Except.ok.inj h
      exact hout

/-- A row is put into a table that has columns. -/
theorem InsertReady.heapTable (h : InsertReady A ce rel row_buf row_len)
    (hkind : clusteredType rel.kind = some .heap) (hlong : 8 ≤ row_len.toNat) :
    ∃ row, A.HeapTable row ∧ rel = A.handle row := by
  obtain ⟨row, hmem, rfl⟩ := h.found
  refine ⟨row, ⟨hmem, ?_, fun hnone => ?_⟩, rfl⟩
  · change clusteredType row.clustered_type.toUInt32 = some .heap at hkind
    unfold clusteredType at hkind
    split_ifs at hkind with hheap hbtree
    · exact hheap
    · cases hkind
  · -- without columns the row is empty
    obtain ⟨vals, parts, henc, hrow⟩ := h.encoded
    have hschema : (A.handle row).schema = [] := hnone
    rw [hschema] at henc
    cases henc
    have hlen := congrArg List.length hrow
    rw [List.length_take, h.buf] at hlen
    have hshort := h.short
    simp only [rowBytes, List.flatMap_nil, List.length_nil] at hlen
    omega

/-- **`INSERT`** into a HEAP table. -/
theorem DatabaseInv.insert (h : DatabaseInv A hi chain c rows) (hno : c.env.pool.NoEexist)
    (hbuf : ce.row_buf.length = KDS_DSHELL_ROW_MAX.toNat) (hready : InsertReady A ce rel row_buf row_len)
    (hkind : clusteredType rel.kind = some .heap) (hout : out.length = DSHELL_RESP_MAX)
    (hrun : insertEncoded crc32c ce c rel name row_buf row_len out = some (.ok (ret, out', c'))) :
    InsertAnswer A hi chain c rows name rel.oid (row_buf.take row_len.toNat) ret out' c' := by
  have hmax : ce.row_buf.length = 256 := hbuf
  have hshort := hready.short
  have hread : (bufferOf row_buf).read 0 row_len.toNat = row_buf.take row_len.toNat :=
    bufferOf_read (by rw [hready.buf]; exact hshort)
  have hlen : (row_buf.take row_len.toNat).length = row_len.toNat := by
    rw [List.length_take, hready.buf]
    omega
  have hless : ¬ 8 ≤ row_len.toNat → row_len < 8 := fun hlong =>
    UInt16.lt_iff_toNat_lt.mpr (Nat.not_le.mp hlong)
  unfold insertEncoded at hrun
  rw [hkind] at hrun
  dsimp only at hrun
  obtain ⟨result, hproc, hanswer⟩ := Option.map_eq_some_iff.mp hrun
  unfold kds_dshell_run_exec_via_proc at hproc
  cases hslices : runSlices crc32c ce.turns ce.slices
      (.heap (kds_heap_insert_exec_init (some ⟨rel.root_page_id, .heap⟩) (bufferOf row_buf) row_len
        KDS_DSHELL_XID)) { c.env with ticks := ce.ticks } with
  | none =>
    rw [hslices] at hproc
    cases hproc
  | some res =>
    obtain ⟨r, exec', env'⟩ := res
    rw [hslices] at hproc
    obtain rfl := Option.some.inj hproc
    cases hfinish : finishText r exec' out with
    | error fault =>
      rw [hfinish] at hanswer
      cases hanswer
    | ok resp =>
      rw [hfinish] at hanswer
      have hresp := finishText_length hout hfinish
      change answerExec (heapTexts name) r.isSome exec' resp { c with env := env' } =
        .ok (ret, out', c') at hanswer
      have htick : DatabaseStep A chain c A hi chain { c with env := { c.env with ticks := ce.ticks } } rows :=
        h.loads ⟨rfl, rfl, fun _ hid => hid, rfl⟩ rfl
      have hdb := htick.inv
      cases r with
      | none =>
        -- the wait has timed out
        obtain ⟨rfl, hrest⟩ := Prod.mk.inj (Except.ok.inj hanswer)
        obtain ⟨rfl, rfl⟩ := Prod.mk.inj hrest
        obtain ⟨n, out₁, hprint, hans⟩ := printAt_answers hout (ascii "ERR exec timed out after 5000ms\n")
        unfold finishText at hfinish
        rw [hprint] at hfinish
        obtain rfl := Except.ok.inj hfinish
        refine .timedOut hans ?_
        by_cases hlong : 8 ≤ row_len.toNat
        · obtain ⟨row, hrow, rfl⟩ := hready.heapTable hkind hlong
          obtain ⟨-, -, hend⟩ := (hdb.tables hrow).insert hdb.ring hno (bufferOf row_buf) KDS_DSHELL_XID hlong
            (by omega) hslices
          cases hend with
          | timedOut hu => exact htick.evolved.step (hdb.loads hu rfl)
        · obtain ⟨rfl, -⟩ := runSlices_short rfl rfl (hless hlong) hslices
          exact htick
      | some r =>
        by_cases hlong : 8 ≤ row_len.toNat
        · obtain ⟨row, hrow, rfl⟩ := hready.heapTable hkind hlong
          obtain ⟨hspares, hmarks, hend⟩ := (hdb.tables hrow).insert hdb.ring hno (bufferOf row_buf)
            KDS_DSHELL_XID hlong (by omega) hslices
          rw [hread] at hend
          have hkeeps : TableHolds row.desc_page_id env' (chain row.oid) (rows row.oid) →
              DatabaseStep A chain c A hi chain { c with env := env' } rows := by
            intro htable
            have hwrite : DatabaseStep A chain _ A hi _ { c with env := env' } _ :=
              hdb.writes hrow hspares hmarks (by rfl) htable (.refl _ _ _) (hdb.typed row.oid)
            rw [Function.update_eq_self, Function.update_eq_self] at hwrite
            exact htick.evolved.step hwrite
          generalize hret : exec'.ret = exec_ret at hend
          unfold answerExec at hanswer
          rw [hret] at hanswer
          cases hend with
          | duplicate hdup htable =>
            obtain ⟨rfl, rfl, hans⟩ := respond_answers hresp hanswer
            exact .duplicate hdup hans (hkeeps htable)
          | noPage hkey hst htable =>
            obtain ⟨rfl, rfl, hans⟩ := respond_answers hresp hanswer
            exact .noPage hkey hst hans (hkeeps htable)
          | inserted hkey hpages htable =>
            obtain ⟨rfl, rfl, hans⟩ := respond_answers hresp hanswer
            have htyped : ∀ bs ∈ rows row.oid ++ [row_buf.take row_len.toNat], A.Typed row.oid bs := by
              intro bs hbs
              rcases List.mem_append.mp hbs with hbs | hbs
              · exact hdb.typed row.oid bs hbs
              · rw [List.mem_singleton.mp hbs]
                exact hready.encoded
            have hwrite : DatabaseStep A chain _ A hi _ { c with env := env' } _ :=
              hdb.writes hrow hspares hmarks (by rfl) htable hpages htyped
            refine .inserted exec'.out_tid hkey ?_ (htick.evolved.step hwrite)
            simpa only [heapTexts, List.append_assoc] using hans
        · obtain ⟨rfl, hres⟩ := runSlices_short rfl rfl (hless hlong) hslices
          obtain hnone | ⟨-, hret⟩ := hres
          · cases hnone
          unfold answerExec at hanswer
          rw [hret] at hanswer
          obtain ⟨rfl, rfl, hans⟩ := respond_answers hresp hanswer
          exact .tooShort (by omega) hans htick

end insert

/-! ## Section 3: The other commands -/

section sizes

variable {out : List UInt8} {n : Int}

theorem writeAt_size (bs : List UInt8) :
    Returns (writeAt out n bs) fun out' => out'.length = out.length := by
  unfold writeAt
  refine .ite (fun hin => .ok (length_put ?_)) fun _ => .error _
  omega

theorem putText_size (text : List UInt8) :
    Returns (putText out n text) fun out' => out'.length = out.length :=
  .ite (fun _ => .ok rfl) fun _ => writeAt_size _

theorem printAt_size (text : List UInt8) :
    Returns (printAt out n text) fun r => r.2.length = out.length := by
  unfold printAt
  exact (putText_size _).bind fun _ hlen => .ok hlen

theorem printSep_size (i : Nat) : Returns (printSep i out n) fun r => r.2.length = out.length :=
  .ite (fun _ => printAt_size _) fun _ => .ok rfl

/-- Decoding a row leaves the buffer its size. -/
theorem decodeColumns_size (buf : List UInt8) (cols : List KdsSysColumn) :
    ∀ (i off : Nat) (n : Int) (out : List UInt8),
      Returns (decodeColumns buf cols i off n out) fun r => r.2.length = out.length := by
  induction cols with
  | nil => exact fun _ _ _ _ => .ok rfl
  | cons col cols ih =>
    intro i off n out
    unfold decodeColumns
    cases kds_type_lookup_by_val col.type_val with
    | none => exact .ok rfl
    | some desc =>
      refine (printSep_size i).bind fun a ha => (Returns.self _).bind fun span _ => ?_
      cases span with
      | error e => exact .ok ha
      | ok span =>
        refine .ite (fun _ => .ok ha) fun _ => ?_
        refine (printAt_size _).bind fun b hb => (Returns.self _).bind fun value _ => ?_
        cases desc.decode value (roomAt b.2 b.1) with
        | error e => exact .ok (hb.trans ha)
        | ok dec =>
          refine (putText_size _).bind fun out' hout' => ?_
          exact (ih _ _ _ out').mono fun r hr => hr.trans (hout'.trans (hb.trans ha))

theorem ScanOut.print_size (s : ScanOut) (text : List UInt8) :
    Returns (s.print text) fun s' => s'.out.length = s.out.length := by
  unfold ScanOut.print
  exact (printAt_size _).bind fun _ hlen => .ok hlen

theorem ScanOut.decode_size (cols : List KdsSysColumn) (s : ScanOut) (row : List UInt8) :
    Returns (s.decode cols row) fun s' => s'.out.length = s.out.length := by
  unfold ScanOut.decode
  refine .ite (fun hin => ?_) fun _ => .error _
  refine (decodeColumns_size row cols 0 0 0 (s.out.drop s.n.toNat)).bind fun r hr => ?_
  have hlen : (s.out.take s.n.toNat ++ r.2).length = s.out.length := by
    rw [List.length_append, List.length_take, hr, List.length_drop]
    omega
  obtain ⟨r, rest⟩ := r
  cases r with
  | error e => exact .ok hlen
  | ok r => exact .ok hlen

theorem scanTuple_size (cols : List KdsSysColumn) (page_id : PageId) (slot : Nat) (xmin xmax : UInt64)
    (row : List UInt8) (s : ScanOut) :
    Returns (scanTuple cols page_id slot xmin xmax row s) fun s' => s'.out.length = s.out.length := by
  unfold scanTuple
  refine .ite (fun _ => ?_) fun _ => ?_
  · exact (s.print_size _).bind fun s' hs' => .ok hs'
  · refine (s.print_size _).bind fun s₁ hs₁ => (s₁.decode_size cols row).bind fun s₂ hs₂ => ?_
    exact .ok (hs₂.trans hs₁)

theorem scanSlotsOf_size (cols : List KdsSysColumn) (page_id : PageId) (f : Frame) (slots : List Nat) :
    ∀ s : ScanOut, Returns (scanSlotsOf cols page_id f slots s) fun s' => s'.out.length = s.out.length := by
  induction slots with
  | nil => exact fun _ => .ok rfl
  | cons slot slots ih =>
    intro s
    unfold scanSlotsOf
    split
    · exact ih s
    · exact .ok rfl
    · refine (scanTuple_size _ _ _ _ _ _ s).bind fun s₁ hs₁ => .ite (fun _ => .ok hs₁) fun _ => ?_
      exact (ih s₁).mono fun s₂ hs₂ => hs₂.trans hs₁

/-- The loop over the pages loads some of them, and writes to none. -/
theorem scanPages_loads (cols : List KdsSysColumn) (turns : Nat) :
    ∀ (id : PageId) (idx : UInt32) (p : Pool) (s : ScanOut)
      (run : Except Fault (Except Errno UInt32 × ScanOut × Pool)),
      scanPages cols turns id idx p s = some run →
        Returns run fun r => r.2.1.out.length = s.out.length ∧ r.2.2.frame = p.frame ∧
          (∀ j, (p.cached j).isSome → (r.2.2.cached j).isSome) ∧ r.2.2.disk = p.disk := by
  induction turns with
  | zero => exact fun _ _ _ _ _ hrun => nomatch hrun
  | succ turns ih =>
    intro id idx p s run hrun
    unfold scanPages at hrun
    by_cases hstop : id = 0 ∨ s.truncated = true
    · rw [if_pos hstop] at hrun
      obtain rfl := Option.some.inj hrun
      exact .ok ⟨rfl, rfl, fun _ h => h, rfl⟩
    · rw [if_neg hstop] at hrun
      cases hload : kds_buf_lookup_or_load p id with
      | mk ret p₁ =>
        have honly := (lookup_or_load_loadOnly hload).1
        have hkeeps := lookup_or_load_keeps hload
        rw [hload] at hrun
        cases ret with
        | error e =>
          obtain rfl := Option.some.inj hrun
          exact (s.print_size _).bind fun s' hs' => .ok ⟨hs', honly.frame, hkeeps, honly.disk⟩
        | ok frame =>
          dsimp only at hrun
          cases hslots : scanSlotsOf cols id (p₁.frame frame) (heapSlots (p₁.frame frame)) s with
          | error fault =>
            rw [hslots] at hrun
            obtain rfl := Option.some.inj hrun
            exact .error _
          | ok s₁ =>
            rw [hslots] at hrun
            have hs₁ := scanSlotsOf_size _ _ _ _ s s₁ hslots
            refine (ih _ _ _ _ _ hrun).mono fun r hr => ?_
            obtain ⟨hsize, hframe, hcached, hdisk⟩ := hr
            exact ⟨hsize.trans hs₁, hframe.trans honly.frame, fun j hj => hcached j (hkeeps j hj),
              hdisk.trans honly.disk⟩

end sizes

section commands

variable {A : Catalog} {hi : Nat} {chain : UInt64 → List PageId} {c c' : CatalogEnv}
  {rows : UInt64 → List (List UInt8)} {ce : CmdEnv} {out out' : List UInt8} {ret : CmdRet}

/-- **`SELECT`** writes to no page. -/
theorem scan_table_loads (h : CatalogHolds c.env.pool A) {kzalloc_ok : Bool} {name : CString} {turns : Nat}
    {res : Except Errno Unit} {p' : Pool} (hout : out.length = DSHELL_RESP_MAX)
    (hrun : kds_cmd_scan_table c.env.pool kzalloc_ok name out turns = some (.ok (res, out', p'))) :
    out'.length = DSHELL_RESP_MAX ∧ Untouched c.env (c.setPool p').env := by
  -- every refusal is a line of text, and nothing else
  have hrefuse : ∀ (text : List UInt8) (e : Errno),
      some (refuse out text e c.env.pool) = some (.ok (res, out', p')) →
        out'.length = DSHELL_RESP_MAX ∧ Untouched c.env (c.setPool p').env := by
    intro text e heq
    obtain ⟨n, out₁, hprint, hans⟩ := printAt_answers hout text
    unfold refuse at heq
    rw [hprint] at heq
    obtain ⟨-, hrest⟩ := Prod.mk.inj (Except.ok.inj (Option.some.inj heq))
    obtain ⟨rfl, rfl⟩ := Prod.mk.inj hrest
    exact ⟨hans.1, .refl _⟩
  unfold kds_cmd_scan_table at hrun
  rw [kds_catalog_find_table_oid_by_name_eq h] at hrun
  cases hfind : (A.objects.find? (namesTable name)).map KdsSysObject.oid with
  | none =>
    rw [hfind] at hrun
    exact hrefuse _ _ hrun
  | some oid =>
    rw [hfind] at hrun
    dsimp only [Option.elim] at hrun
    rw [kds_relation_open_eq h] at hrun
    cases hrow : A.tables.find? fun row => row.oid = oid with
    | none =>
      rw [hrow] at hrun
      exact hrefuse _ _ hrun
    | some row =>
      rw [hrow] at hrun
      cases kzalloc_ok with
      | false => exact hrefuse _ _ hrun
      | true =>
        dsimp only at hrun
        rw [if_pos rfl] at hrun
        dsimp only at hrun
        by_cases hkind : (A.handle row).kind = KDS_CLUSTERED_HEAP
        · rw [if_neg (not_not.mpr hkind)] at hrun
          obtain ⟨n, out₁, hprint, hans⟩ := printAt_answers hout (ascii "OK ")
          rw [hprint] at hrun
          obtain ⟨run, hpages, hfinish⟩ := Option.map_eq_some_iff.mp hrun
          -- the page loop only loads, whether it ends or not
          have hloads := scanPages_loads _ _ _ _ _ _ _ hpages
          cases run with
          | error fault => cases hfinish
          | ok r =>
            obtain ⟨hsize, hframe, hkeeps, hdisk⟩ := hloads r rfl
            obtain ⟨r, s, p₁⟩ := r
            have hu : Untouched c.env (c.setPool p₁).env := ⟨hframe, rfl, hkeeps, hdisk⟩
            cases r with
            | error e =>
              obtain ⟨-, hrest⟩ := Prod.mk.inj (Except.ok.inj hfinish)
              obtain ⟨rfl, rfl⟩ := Prod.mk.inj hrest
              exact ⟨hsize.trans hans.1, hu⟩
            | ok idx =>
              unfold finishScan at hfinish
              dsimp only at hfinish
              -- behind the loop the counts are printed, unless the listing was cut
              by_cases htrunc : s.truncated = true
              · rw [if_pos htrunc] at hfinish
                obtain ⟨-, hrest⟩ := Prod.mk.inj (Except.ok.inj hfinish)
                obtain ⟨rfl, rfl⟩ := Prod.mk.inj hrest
                exact ⟨hsize.trans hans.1, hu⟩
              · rw [if_neg htrunc] at hfinish
                obtain ⟨s', hs', hfinish⟩ := exists_of_bind_ok hfinish
                obtain ⟨-, hrest⟩ := Prod.mk.inj (Except.ok.inj hfinish)
                obtain ⟨rfl, rfl⟩ := Prod.mk.inj hrest
                exact ⟨(s.print_size _ s' hs').trans (hsize.trans hans.1), hu⟩
        · rw [if_pos hkind] at hrun
          exact hrefuse _ _ hrun

/-- **`CREATE TABLE`** as a command. -/
theorem DatabaseInv.cmd_create_table (h : DatabaseInv A hi chain c rows) {stmt : KdsStmtCreateTable}
    (hout : out.length = DSHELL_RESP_MAX) (hrun : kds_cmd_create_table ce c stmt out = .ok (ret, out', c')) :
    out'.length = DSHELL_RESP_MAX ∧ ∃ A' hi' chain', DatabaseStep A chain c A' hi' chain' c' rows := by
  unfold kds_cmd_create_table at hrun
  by_cases halloc : (!ce.kzalloc_ok) = true
  · rw [if_pos halloc] at hrun
    obtain ⟨-, rfl, hans⟩ := respond_answers hout hrun
    exact ⟨hans.1, A, hi, chain, h.stays⟩
  rw [if_neg halloc] at hrun
  by_cases hfits : (schemaColumns stmt.cols).length ≤ KDS_SCHEMA_MAX_COLUMNS
  · rw [dif_pos hfits] at hrun
    dsimp only at hrun
    split_ifs at hrun with hint
    · -- the first column is no key
      obtain ⟨-, rfl, hans⟩ := respond_answers hout hrun
      exact ⟨hans.1, A, hi, chain, h.stays⟩
    · cases hcall : kds_catalog_create_table c KDS_OID_NAMESPACE_PUBLIC (some stmt.table_name)
          (some ⟨schemaColumns stmt.cols, hfits⟩) stmt.clustered.code true with
      | mk res c₁ =>
        have hdb := h.create_table hcall
        rw [hcall] at hrun
        cases res with
        | error e =>
          obtain ⟨-, rfl, hans⟩ := respond_answers hout hrun
          exact ⟨hans.1, hdb⟩
        | ok oid =>
          obtain ⟨-, rfl, hans⟩ := respond_answers hout hrun
          exact ⟨hans.1, hdb⟩
  · rw [dif_neg hfits] at hrun
    cases hrun

variable {crc32c : UInt32 → List UInt8 → UInt32} {stmt : KdsStmt}

/-- The answer of a table says "OK" exactly if the row went in. -/
theorem InsertAnswer.saysOk_iff {name : CString} {oid : UInt64} {row : List UInt8}
    (h : InsertAnswer A hi chain c rows name oid row ret out' c') :
    out'.length = DSHELL_RESP_MAX ∧ ∃ chain', DatabaseStep A chain c A hi chain' c'
      (if SaysOk out' then Function.update rows oid (rows oid ++ [row]) else rows) := by
  have hno : ∀ rest : List UInt8, Answers out' (ascii "ERR" ++ rest) →
      DatabaseStep A chain c A hi chain c' rows →
      out'.length = DSHELL_RESP_MAX ∧ ∃ chain', DatabaseStep A chain c A hi chain' c'
        (if SaysOk out' then Function.update rows oid (rows oid ++ [row]) else rows) := by
    intro rest hans hdb
    rw [if_neg (Answers.not_saysOk rest hans)]
    exact ⟨hans.1, chain, hdb⟩
  cases h with
  | timedOut hans hdb => exact hno (ascii " exec timed out after 5000ms\n") hans hdb
  | tooShort hlen hans hdb =>
    exact hno (ascii " insert failed: " ++ errnoText .EINVAL ++ ascii "\n") hans hdb
  | duplicate hdup hans hdb =>
    exact hno (ascii " duplicate primary key in " ++ inQuotes name ++ ascii "\n") hans hdb
  | noPage hkey hst hans hdb =>
    exact hno (ascii " insert failed: " ++ errnoText .ENOSPC ++ ascii "\n") hans hdb
  | inserted tid hkey hans hdb =>
    have hok : SaysOk out' := Answers.saysOk (ascii " inserted into " ++ inQuotes name ++
      ascii " at " ++ (ascii "page=" ++ numeral tid.page_id.toNat ++ ascii " slot=" ++
        numeral tid.slot.toNat ++ ascii "\n")) hans
    rw [if_pos hok]
    exact ⟨hans.1, _, hdb⟩

/-- **One statement** keeps the invariant, with the row that was answered with "OK". -/
theorem DatabaseInv.dispatch (h : DatabaseInv A hi chain c rows) (hno : c.env.pool.NoEexist)
    (hbuf : ce.row_buf.length = KDS_DSHELL_ROW_MAX.toNat) (hout : out.length = DSHELL_RESP_MAX)
    (hheap : ∀ ins, stmt = .insert ins → ∀ rel row_buf row_len c₁,
      prepareInsert ce c ins = .ok (.ok (rel, row_buf, row_len), c₁) → clusteredType rel.kind ≠ some .btree)
    (hrun : kds_dispatch_stmt crc32c ce c stmt out = some (.ok (ret, out', c'))) :
    out'.length = DSHELL_RESP_MAX ∧
      ∃ A' hi' chain', DatabaseStep A chain c A' hi' chain' c' (recordRow ce c rows out' stmt) := by
  cases stmt with
  | create_table stmt => exact h.cmd_create_table hout (Option.some.inj hrun)
  | insert stmt =>
    unfold kds_dispatch_stmt kds_cmd_insert_row at hrun
    unfold recordRow
    dsimp only at hrun ⊢
    cases hprep : prepareInsert ce c stmt with
    | error fault =>
      rw [hprep] at hrun
      cases hrun
    | ok res =>
      obtain ⟨res, c₁⟩ := res
      obtain ⟨rfl, hready⟩ := prepareInsert_cases h.catalog.holds hprep
      rw [hprep] at hrun
      cases res with
      -- no table, no memory or no row: an answer that does not say "OK"
      | error e =>
        obtain ⟨-, rfl, hans⟩ := respond_answers hout (Option.some.inj hrun)
        exact ⟨hans.1, A, hi, chain, h.stays⟩
      | ok ready =>
        obtain ⟨rel, row_buf, row_len⟩ := ready
        have hready := hready rel row_buf row_len rfl
        cases hkind : clusteredType rel.kind with
        | none =>
          change insertEncoded crc32c ce _ rel stmt.table_name row_buf row_len out = _ at hrun
          unfold insertEncoded at hrun
          rw [hkind] at hrun
          obtain ⟨-, rfl, hans⟩ := respond_answers hout (Option.some.inj hrun)
          -- the answer begins with a blank, so no row is recorded
          have hno := Answers.not_saysOk (ascii " " ++ inQuotes stmt.table_name ++
            ascii " has unsupported clustered type " ++ fmtLld rel.kind.toInt32.toInt ++ ascii "\n") hans
          dsimp only
          rw [if_neg hno]
          exact ⟨hans.1, A, hi, chain, h.stays⟩
        | some kind =>
          cases kind with
          | btree => exact absurd hkind (hheap stmt rfl rel row_buf row_len _ hprep)
          | heap =>
            -- "OK" is answered exactly if the row went in
            obtain ⟨hsize, chain', hdb⟩ := (h.insert hno hbuf hready hkind hout hrun).saysOk_iff
            exact ⟨hsize, A, hi, chain', hdb⟩
  | select stmt =>
    obtain ⟨res, hscan, hres⟩ := Option.map_eq_some_iff.mp hrun
    obtain ⟨r, hr, hres⟩ := exists_of_bind_ok hres
    obtain ⟨res, out₁, p⟩ := r
    obtain ⟨-, hrest⟩ := Prod.mk.inj (Except.ok.inj hres)
    obtain ⟨rfl, rfl⟩ := Prod.mk.inj hrest
    obtain ⟨hsize, hu⟩ := scan_table_loads h.catalog.holds hout (hr ▸ hscan)
    exact ⟨hsize, A, hi, chain, h.loads hu rfl⟩
  | show_meta =>
    have hrun := Option.some.inj hrun
    unfold kds_cmd_show_meta at hrun
    cases hsb : c.env.pool.superblock with
    | none =>
      rw [hsb] at hrun
      obtain ⟨-, rfl, hans⟩ := respond_answers hout hrun
      exact ⟨hans.1, A, hi, chain, h.stays⟩
    | some sb =>
      rw [hsb] at hrun
      obtain ⟨-, rfl, hans⟩ := respond_answers hout hrun
      exact ⟨hans.1, A, hi, chain, h.stays⟩
  | show_alloc =>
    obtain ⟨r, -, hrun⟩ := exists_of_bind_ok (Option.some.inj hrun)
    obtain ⟨-, rfl, hans⟩ := respond_answers hout hrun
    exact ⟨hans.1, A, hi, chain, h.stays⟩

end commands

/-! ## Section 4: Runs -/

/-- A buffer of its size, and a read position in the response. -/
structure ClientOk (client : KdsDshellClient) : Prop where
  size : client.resp_buf.length = DSHELL_RESP_MAX
  len : client.resp_len ≤ DSHELL_RESP_MAX
  pos : client.resp_pos ≤ client.resp_len

section runs

variable {crc32c : UInt32 → List UInt8 → UInt32} {A : Catalog} {hi : Nat}
  {chain : UInt64 → List PageId} {c c' : CatalogEnv} {rows : UInt64 → List (List UInt8)} {ce : CmdEnv}
  {client client' : KdsDshellClient} {client? : Option KdsDshellClient} {ubuf : List UInt8} {n : Nat}
  {s s' : Database}

theorem open_ok : ClientOk kds_dshell_open where
  size := List.length_replicate
  len := Nat.zero_le _
  pos := Nat.le_refl _

theorem stageResp_ok {resp_buf : List UInt8} (h : resp_buf.length = DSHELL_RESP_MAX) :
    ClientOk (stageResp resp_buf) where
  size := h
  len := h ▸ (List.takeWhile_sublist _).length_le
  pos := Nat.zero_le _

/-- What a read copies out, and where it leaves the position. -/
theorem dshell_read_eq (h : ClientOk client) (len : Nat) :
    kds_dshell_read client len = .ok
      (((client.resp_buf.drop client.resp_pos).take (min len (client.resp_len - client.resp_pos))),
        { client with resp_pos := client.resp_pos + min len (client.resp_len - client.resp_pos) }) := by
  have hlen := h.len
  have hpos := h.pos
  have hsize := h.size
  have hmax : DSHELL_RESP_MAX < 2 ^ 64 := by decide
  have hremaining : (((client.resp_len : Int) - client.resp_pos) % 2 ^ 64).toNat =
      client.resp_len - client.resp_pos := by omega
  unfold kds_dshell_read
  dsimp only
  rw [hremaining]
  by_cases hdone : client.resp_len - client.resp_pos = 0
  · rw [if_pos hdone, hdone, Nat.min_zero, List.take_zero, Nat.add_zero]
  · rw [if_neg hdone]
    unfold readAt
    rw [if_pos (by omega)]
    rfl

theorem dshell_read_ok (h : ClientOk client) {len : Nat} {bytes : List UInt8}
    (hrun : kds_dshell_read client len = .ok (bytes, client')) : ClientOk client' := by
  rw [dshell_read_eq h] at hrun
  obtain ⟨-, rfl⟩ := Prod.mk.inj (Except.ok.inj hrun)
  have hpos := h.pos
  exact ⟨h.size, h.len, by dsimp only; omega⟩

/-- The failures of the disk are no part of the database. -/
theorem DatabaseInv.withFail (h : DatabaseInv A hi chain c rows) (fail : Nat → Option Errno) :
    DatabaseStep A chain c A hi chain (c.withFail fail) rows :=
  h.loads ⟨rfl, rfl, fun _ hid => hid, rfl⟩ rfl

/-- **One line** keeps the invariant. -/
theorem DatabaseInv.line (h : DatabaseInv A hi chain c rows) {fail : Nat → Option Errno} (hce : CmdOk ce fail)
    (hclient : ClientOk client) (hheap : ∀ ins, stmtOf ubuf = some (.insert ins) →
      ∀ rel row_buf row_len c₁, prepareInsert ce (c.withFail fail) ins = .ok (.ok (rel, row_buf, row_len), c₁) →
        clusteredType rel.kind ≠ some .btree)
    (hrun : kds_dshell_write crc32c ce (c.withFail fail) client ubuf = some (.ok (n, client', c'))) :
    ClientOk client' ∧ ∃ A' hi' chain', DatabaseStep A chain c A' hi' chain' c'
      (((stmtOf ubuf).map (recordRow ce (c.withFail fail) rows client'.resp_buf)).getD rows) := by
  have hfail := h.withFail fail
  have hclear : (clearResp client.resp_buf).length = DSHELL_RESP_MAX := by
    unfold clearResp
    rw [List.length_set, hclient.size]
  unfold stmtOf at hheap ⊢
  unfold kds_dshell_write at hrun
  dsimp only at hrun
  cases hparse : kds_parse (CString.ofBuffer (ubuf.take (DSHELL_LINE_MAX - 1))) KDS_PARSER_ERR_MAX with
  | mk res parse_err =>
    rw [hparse] at hrun hheap
    cases res with
    | error e =>
      obtain ⟨r, hprint, hrun⟩ := exists_of_bind_ok (Option.some.inj hrun)
      obtain ⟨-, hrest⟩ := Prod.mk.inj (Except.ok.inj hrun)
      obtain ⟨rfl, rfl⟩ := Prod.mk.inj hrest
      exact ⟨stageResp_ok ((printAt_size _ _ hprint).trans hclear), A, hi, chain, hfail⟩
    | ok stmt =>
      obtain ⟨result, hdisp, hrun⟩ := Option.map_eq_some_iff.mp hrun
      obtain ⟨r, hr, hrun⟩ := exists_of_bind_ok hrun
      obtain ⟨ret, out', c₁⟩ := r
      obtain ⟨-, hrest⟩ := Prod.mk.inj (Except.ok.inj hrun)
      obtain ⟨rfl, rfl⟩ := Prod.mk.inj hrest
      obtain ⟨hsize, A', hi', chain', hnext⟩ := hfail.inv.dispatch hce.fail hce.row_buf hclear
        (fun ins hins => hheap ins (by rw [hins]; rfl)) (hr ▸ hdisp)
      exact ⟨stageResp_ok hsize, A', hi', chain', hfail.evolved.step hnext⟩

/-- What holds in every reachable state. -/
structure DeviceInv (s : Database) : Prop where
  database : ∃ A hi chain, DatabaseInv A hi chain s.c s.rows
  clients : ∀ fd client, s.clients fd = some client → ClientOk client

theorem clients_update {clients : Nat → Option KdsDshellClient}
    (h : ∀ fd client, clients fd = some client → ClientOk client) (fd : Nat)
    (hclient : ∀ client', client? = some client' → ClientOk client') :
    ∀ fd' client', Function.update clients fd client? fd' = some client' → ClientOk client' := by
  intro fd' client' hsome
  by_cases heq : fd' = fd
  · rw [heq, Function.update_self] at hsome
    exact hclient client' hsome
  · rw [Function.update_of_ne heq] at hsome
    exact h fd' client' hsome

/-- One page of `kds_batch_alloc`: it goes into the ring, or nothing has changed. -/
theorem stage_cases (c : CatalogEnv) (id : PageId) (fail : Nat → Option Errno) :
    (catalogStep ⟨c.withFail fail, []⟩ (.stage id)).c.oids = c.oids ∧
      (Untouched c.env (catalogStep ⟨c.withFail fail, []⟩ (.stage id)).c.env ∨
        Refilled c.env id (catalogStep ⟨c.withFail fail, []⟩ (.stage id)).c.env) := by
  dsimp only [catalogStep]
  cases halloc : kds_buf_alloc_new (c.withFail fail).env.pool id with
  | mk res pool =>
    cases res with
    | error e =>
      obtain ⟨-, herr, -⟩ := alloc_new_cases halloc
      obtain ⟨hcached, hdisk⟩ := herr e rfl
      refine ⟨rfl, .inl ⟨?_, rfl, fun j hj => ?_, hdisk⟩⟩
      · funext j
        change pool.frame j = (c.withFail fail).env.pool.frame j
        unfold Pool.frame
        rw [hcached, hdisk]
      · change (pool.cached j).isSome
        rw [hcached]
        exact hj
    | ok frame =>
      obtain ⟨rfl, hrefilled⟩ := alloc_new_staged halloc
      have hr := hrefilled
      exact ⟨rfl, .inr ⟨hr.staged, hr.unused, hr.own, hr.frame, hr.cached, hr.inPool, hr.disk, hr.blank,
        hr.blankDisk⟩⟩

/-- What one step of the device does to the database: a command, or a page for the ring. -/
inductive ActOutcome (A : Catalog) (chain : UInt64 → List PageId) (act : DatabaseAct) (s s' : Database) : Prop
  | command {A' : Catalog} {hi' : Nat} {chain' : UInt64 → List PageId}
      (h : DatabaseStep A chain s.c A' hi' chain' s'.c s'.rows)
  | refill {id : PageId} {fail : Nat → Option Errno} (hact : act = .stage id fail) (hne : id ≠ 0)
      (h : Refilled s.c.env id s'.c.env) (hoids : s'.c.oids = s.c.oids) (hrows : s'.rows = s.rows)

/-- **One step** of the device. -/
theorem DatabaseInv.act_cases (h : DatabaseInv A hi chain s.c s.rows)
    (hclients : ∀ fd client, s.clients fd = some client → ClientOk client) {act : DatabaseAct}
    (hstep : (databaseSystem crc32c).step s act s') (hheap : NotIntoBtree s act) :
    (∀ fd client, s'.clients fd = some client → ClientOk client) ∧ ActOutcome A chain act s s' := by
  cases act with
  | «open» fd =>
    obtain ⟨-, rfl⟩ := hstep
    refine ⟨clients_update hclients fd fun client hsome => ?_, .command h.stays⟩
    obtain rfl := Option.some.inj hsome
    exact open_ok
  | write fd ubuf ce fail =>
    obtain ⟨client, hk, hce, n, client', c', hrun, rfl⟩ := hstep
    obtain ⟨hclient, A', hi', chain', hnext⟩ := h.line hce (hclients fd client hk) hheap hrun
    refine ⟨clients_update hclients fd fun client'' hsome => ?_, .command hnext⟩
    obtain rfl := Option.some.inj hsome
    exact hclient
  | read fd len =>
    obtain ⟨client, hk, bytes, client', hrun, rfl⟩ := hstep
    refine ⟨clients_update hclients fd fun client'' hsome => ?_, .command h.stays⟩
    obtain rfl := Option.some.inj hsome
    exact dshell_read_ok (hclients fd client hk) hrun
  | release fd =>
    obtain rfl := hstep
    exact ⟨clients_update hclients fd fun client hsome => (nomatch hsome), .command h.stays⟩
  | stage id fail =>
    obtain ⟨hne, rfl⟩ := hstep
    refine ⟨hclients, ?_⟩
    obtain ⟨hoids, hloads | hrefilled⟩ := stage_cases s.c id fail
    · exact .command (h.loads hloads hoids)
    · exact .refill rfl hne hrefilled hoids rfl

/-- It keeps the invariant. -/
theorem DeviceInv.step (h : DeviceInv s) {act : DatabaseAct} (hstep : (databaseSystem crc32c).step s act s')
    (hheap : NotIntoBtree s act) : DeviceInv s' := by
  obtain ⟨A, hi, chain, hdb⟩ := h.database
  obtain ⟨hclients, hout⟩ := hdb.act_cases h.clients hstep hheap
  refine ⟨?_, hclients⟩
  cases hout with
  | command hnext => exact ⟨_, _, _, hnext.inv⟩
  | refill hact hne hrefilled hoids hrows => exact ⟨A, hi, chain, hrows ▸ hdb.refilled hrefilled hne hoids⟩

end runs

end Kds
