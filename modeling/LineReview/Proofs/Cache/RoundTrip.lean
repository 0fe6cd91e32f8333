import LineReview.Cache.Packed
import Mathlib.Data.List.Basic
import Mathlib.Tactic.Ring

/-!
# Reading a packed entry back

Every writer of the packed form has its reader. The statements here all have
the same shape: the reader, given what the writer made and any bytes after it,
returns the value and those bytes. Lengths take at most four bytes, so a text
or a list has to be shorter than `2 ^ 32` to come back whole; `Fits` says so.
-/

namespace LineReview.Packed

/-- Messages and their number are short enough for the length marks. -/
def Fits (ds : List Diagnostic) : Prop :=
  ds.length < 2 ^ 32 ∧ ∀ d ∈ ds, d.message.length < 2 ^ 32

/-- Path and diagnostics of an entry are short enough for the length marks. -/
def EntryFits (e : CacheEntry) : Prop :=
  e.path.length < 2 ^ 32 ∧ ∀ ds, e.diagnostics = some ds → Fits ds

/-! ## Numbers -/

@[simp] theorem length_bigEndian (n v : Nat) : (bigEndian n v).length = n := by
  induction n generalizing v with
  | zero => rfl
  | succ n ih => simp [bigEndian, ih]

theorem ofBigEndian_concat (t : Text) (b : UInt8) :
    ofBigEndian (t ++ [b]) = 256 * ofBigEndian t + b.toNat := by
  simp [ofBigEndian, List.foldl_append]

/-- The bytes of a number keep it modulo their range. -/
theorem ofBigEndian_bigEndian (n v : Nat) :
    ofBigEndian (bigEndian n v) = v % 256 ^ n := by
  induction n generalizing v with
  | zero => simp [bigEndian, ofBigEndian, Nat.mod_one]
  | succ n ih =>
      have hbyte : ((v % 256).toUInt8).toNat = v % 256 := by
        simp [Nat.toUInt8]
      rw [bigEndian, ofBigEndian_concat, ih, hbyte, Nat.pow_succ,
        Nat.mul_comm (256 ^ n) 256, Nat.mod_mul]
      omega

theorem takeBytes_append (a rest : Text) :
    takeBytes a.length (a ++ rest) = some (a, rest) := by
  simp [takeBytes]

theorem takeNumber_bigEndian {n v : Nat} (hv : v < 256 ^ n) (rest : Text) :
    takeNumber n (bigEndian n v ++ rest) = some (v, rest) := by
  have htake := takeBytes_append (bigEndian n v) rest
  rw [length_bigEndian] at htake
  simp [takeNumber, htake, ofBigEndian_bigEndian, Nat.mod_eq_of_lt hv]

theorem readNumber_byte (n : UInt8) (rest : Text) :
    readNumber (byte n ++ rest) = some (n.toNat, rest) := by
  have htake : takeNumber 1 (n :: rest) = some (n.toNat, rest) := by
    simp [takeNumber, takeBytes, ofBigEndian]
  simpa [readNumber, byte, takeByte] using htake

theorem readNumber_word (n : UInt16) (rest : Text) :
    readNumber (word n ++ rest) = some (n.toNat, rest) := by
  have htake := takeNumber_bigEndian (n := 2) (v := n.toNat) n.toNat_lt rest
  simpa [readNumber, word, takeByte] using htake

theorem readNumber_long (n : UInt32) (rest : Text) :
    readNumber (long n ++ rest) = some (n.toNat, rest) := by
  have htake := takeNumber_bigEndian (n := 4) (v := n.toNat) n.toNat_lt rest
  simpa [readNumber, long, takeByte] using htake

/-! ## Texts and lists -/

/-- The mark of a short text keeps its length in the five low bits. -/
theorem shortTextMark : ∀ n < 32,
    ((0xA0 + n).toUInt8 = 0xC0) = False ∧
    (0xA0 ≤ (0xA0 + n).toUInt8 && (0xA0 + n).toUInt8 ≤ 0xBF) = true ∧
    (0xA0 + n).toUInt8.toNat % 32 = n := by
  decide

/-- The mark of a short list keeps its length in the four low bits. -/
theorem shortListMark : ∀ n < 16,
    ((0x90 + n).toUInt8 = 0xC0) = False ∧
    (0x90 ≤ (0x90 + n).toUInt8 && (0x90 + n).toUInt8 ≤ 0x9F) = true ∧
    (0x90 + n).toUInt8.toNat % 16 = n := by
  decide

theorem readText_text {t : Text} (ht : t.length < 2 ^ 32) (rest : Text) :
    readText (text t ++ rest) = some (t, rest) := by
  have hbytes := takeBytes_append t rest
  unfold text
  by_cases h32 : t.length < 32
  · obtain ⟨hnil, hrange, hlen⟩ := shortTextMark t.length h32
    simp only [h32, if_true, List.cons_append, List.nil_append]
    simp only [readText, takeByte, textLength, hnil, hrange, hlen, if_false,
      if_true, Option.bind_eq_bind, Option.bind_some]
    exact hbytes
  by_cases h256 : t.length < 256
  · have hlen := takeNumber_bigEndian (n := 1) h256 (t ++ rest)
    simp [h32, h256, readText, takeByte, textLength, hlen, hbytes]
  by_cases h65536 : t.length < 65536
  · have hlen := takeNumber_bigEndian (n := 2) h65536 (t ++ rest)
    simp [h32, h256, h65536, readText, takeByte, textLength, hlen, hbytes]
  · have hlen := takeNumber_bigEndian (n := 4) ht (t ++ rest)
    simp [h32, h256, h65536, readText, takeByte, textLength, hlen, hbytes]

/-- The mark of a list begins with a type byte from which its length is read. -/
theorem listLength_listMark {n : Nat} (hn : n < 2 ^ 32) (rest : Text) :
    ∃ c t, listMark n ++ rest = c :: t ∧ listLength c t = some (some n, rest) := by
  unfold listMark
  by_cases h16 : n < 16
  · obtain ⟨hnil, hrange, hlen⟩ := shortListMark n h16
    refine ⟨(0x90 + n).toUInt8, rest, by simp [h16], ?_⟩
    simp only [listLength, hnil, hrange, hlen, if_false, if_true]
  by_cases h65536 : n < 65536
  · have hlen := takeNumber_bigEndian (n := 2) h65536 rest
    refine ⟨0xDC, bigEndian 2 n ++ rest, by simp [h16, h65536], ?_⟩
    simp [listLength, hlen]
  · have hlen := takeNumber_bigEndian (n := 4) hn rest
    refine ⟨0xDD, bigEndian 4 n ++ rest, by simp [h16, h65536], ?_⟩
    simp [listLength, hlen]

/-! ## Records -/

/-- A member whose name is a field is read into the record. -/
theorem readMembers_field {α : Type} {field : FieldReader α} {a a' : α} {name : String}
    {value rest : Text} {read : Text → Option (α × Text)} (n : Nat)
    (hname : (bytes name).length < 2 ^ 32)
    (hfield : field (bytes name) a = some read)
    (hread : read (value ++ rest) = some (a', rest)) :
    readMembers field (n + 1) a (text (bytes name) ++ (value ++ rest)) =
      readMembers field n a' rest := by
  rw [readMembers]
  simp [readText_text hname, hfield, hread]

/-- A record that is stored as a map of `n` members is read member by member. -/
theorem readRecord_map {α : Type} {field : FieldReader α} {names : List String} {zero old : α}
    {c : UInt8} {n : Nat} {t : Text} (hc : mapLength c t = some (some n, t)) (hn : n ≤ t.length) :
    readRecord field names zero old (c :: t) = readMembers field n old t := by
  simp [readRecord, takeByte, hc, Nat.not_lt.mpr hn]

theorem readDiagnostic_diagnostic {d : Diagnostic} (hd : d.message.length < 2 ^ 32)
    (old : Diagnostic) (rest : Text) :
    readDiagnostic old (diagnostic d ++ rest) = some (d, rest) := by
  have hsplit : diagnostic d ++ rest =
      0x85 :: (text (bytes "sev") ++ (byte d.severity.level ++
        (text (bytes "code") ++ (word d.code.number ++
        (text (bytes "line") ++ (long d.line ++
        (text (bytes "col") ++ (long d.col ++
        (text (bytes "msg") ++ (text d.message ++ rest)))))))))) := by
    simp [diagnostic]
  rw [hsplit, readDiagnostic, readRecord_map (n := 5) rfl (by simp [byte, word]; omega),
    readMembers_field 4 (by decide) rfl (by rw [readNumber_byte]; rfl),
    readMembers_field 3 (by decide) rfl (by rw [readNumber_word]; rfl),
    readMembers_field 2 (by decide) rfl (by rw [readNumber_long]; rfl),
    readMembers_field 1 (by decide) rfl (by rw [readNumber_long]; rfl),
    readMembers_field 0 (by decide) rfl (by rw [readText_text hd]; rfl)]
  simp [readMembers]

theorem readEach_flatMap {ds : List Diagnostic} (hds : ∀ d ∈ ds, d.message.length < 2 ^ 32)
    (old : List Diagnostic) (rest : Text) :
    readEach ds.length old (ds.flatMap diagnostic ++ rest) = some (ds, rest) := by
  induction ds generalizing old with
  | nil => rfl
  | cons d ds ih =>
      have hd := readDiagnostic_diagnostic (hds d List.mem_cons_self) (old.headD noDiagnostic)
        (ds.flatMap diagnostic ++ rest)
      have hrest := ih (fun e he => hds e (List.mem_cons_of_mem _ he)) old.tail
      rw [List.flatMap_cons, List.append_assoc, List.length_cons, readEach]
      simp only [Option.bind_eq_bind, hd, Option.bind_some, hrest, Option.pure_def]

/-- Every diagnostic takes at least one byte, so the bound that the reader puts on the number of
values never cuts a list short. -/
theorem length_le_length_flatMap (ds : List Diagnostic) :
    ds.length ≤ (ds.flatMap diagnostic).length := by
  induction ds with
  | nil => simp
  | cons d ds ih =>
      rw [List.flatMap_cons, List.length_append, List.length_cons]
      have hd : 0 < (diagnostic d).length := by simp [diagnostic]
      omega

theorem readDiagnostics_diagnostics {ds : Option (List Diagnostic)}
    (hds : ∀ l, ds = some l → Fits l) (old : Option (List Diagnostic)) (rest : Text) :
    readDiagnostics old (diagnostics ds ++ rest) = some (ds, rest) := by
  cases ds with
  | none => rfl
  | some l =>
      obtain ⟨hlength, hmessages⟩ := hds l rfl
      obtain ⟨c, t, hmark, hread⟩ := listLength_listMark hlength (l.flatMap diagnostic ++ rest)
      have hsplit : diagnostics (some l) ++ rest = c :: t := by
        rw [diagnostics, List.append_assoc]
        exact hmark
      have henough : ¬ (l.flatMap diagnostic ++ rest).length < l.length := by
        rw [List.length_append]
        have hle := length_le_length_flatMap l
        omega
      have heach := readEach_flatMap hmessages (old.getD []) rest
      rw [hsplit]
      simp only [readDiagnostics, takeByte, Option.bind_eq_bind, Option.bind_some, hread,
        henough, if_false, heach, Option.pure_def]

/-- What is stored for an entry reads back as that entry. -/
theorem readEntry_entry {e : CacheEntry} (he : EntryFits e) : readEntry (entry e) = some e := by
  obtain ⟨hpath, hds⟩ := he
  have hsplit : entry e =
      0x83 :: (text (bytes "schema") ++ (word e.schema ++
        (text (bytes "path") ++ (text e.path ++
        (text (bytes "diags") ++ (diagnostics e.diagnostics ++ [])))))) := by
    simp [entry]
  rw [hsplit, readEntry, readRecord_map (n := 3) rfl (by simp [word]; omega),
    readMembers_field 2 (by decide) rfl (by rw [readNumber_word]; rfl),
    readMembers_field 1 (by decide) rfl (by rw [readText_text hpath]; rfl),
    readMembers_field 0 (by decide) rfl (by rw [readDiagnostics_diagnostics hds]; rfl)]
  simp [readMembers]

end LineReview.Packed
