import LineReview.Review.Outcome
import Mathlib.Data.List.Basic

/-!
# Fingerprints name the options

A fingerprint is a text of fields between separators. Numbers and truth values
are plain words, which hold no separator, so the text can be cut at the
separators next to them: from the front up to the measure and from the back
down to it. The measure may be any text, and what is left between the two cuts
is the measure. Hence options with one fingerprint are the same options
(`fingerprint_inj`), and a reviewer with a classifier of its own, whose
fingerprint is empty, is not taken for one without (`fingerprint_eq_iff`).
-/

namespace LineReview

namespace Text

/-- Two texts agree on both sides of the first separator. -/
theorem cut_front {s : UInt8} {a b x y : Text} (ha : s ∉ a) (hb : s ∉ b)
    (h : a ++ s :: x = b ++ s :: y) : a = b ∧ x = y := by
  induction a generalizing b with
  | nil =>
      cases b with
      | nil => exact ⟨rfl, by simpa using h⟩
      | cons c b =>
          simp only [List.nil_append, List.cons_append, List.cons.injEq] at h
          exact absurd (by rw [h.1]; exact List.mem_cons_self) hb
  | cons c a ih =>
      cases b with
      | nil =>
          simp only [List.nil_append, List.cons_append, List.cons.injEq] at h
          exact absurd (by rw [h.1]; exact List.mem_cons_self) ha
      | cons d b =>
          simp only [List.cons_append, List.cons.injEq] at h
          obtain ⟨rfl, hrest⟩ := h
          have hcut := ih (fun hs => ha (List.mem_cons_of_mem _ hs))
            (fun hs => hb (List.mem_cons_of_mem _ hs)) hrest
          exact ⟨by rw [hcut.1], hcut.2⟩

/-- Two texts agree on both sides of the last separator. -/
theorem cut_back {s : UInt8} {a b x y : Text} (ha : s ∉ a) (hb : s ∉ b)
    (h : x ++ s :: a = y ++ s :: b) : a = b ∧ x = y := by
  have hreverse : a.reverse ++ s :: x.reverse = b.reverse ++ s :: y.reverse := by
    simpa using congrArg List.reverse h
  have hcut := cut_front (by simpa using ha) (by simpa using hb) hreverse
  exact ⟨List.reverse_inj.mp hcut.1, List.reverse_inj.mp hcut.2⟩

/-! ## Plain words -/

/-- No comma, no semicolon and no equals sign. -/
def IsPlain (t : Text) : Prop := ∀ b ∈ t, b ≠ 44 ∧ b ≠ 59 ∧ b ≠ 61

theorem IsPlain.comma {t : Text} (h : IsPlain t) : 44 ∉ t := fun hb => (h 44 hb).1 rfl

theorem IsPlain.semicolon {t : Text} (h : IsPlain t) : 59 ∉ t := fun hb => (h 59 hb).2.1 rfl

theorem IsPlain.equals {t : Text} (h : IsPlain t) : 61 ∉ t := fun hb => (h 61 hb).2.2 rfl

/-- A decimal digit is a character between `0` and `9`, and its byte has the same number. -/
theorem toNat_of_mem_toDigits {n : Nat} {c : Char} (hc : c ∈ Nat.toDigits 10 n) :
    48 ≤ c.toNat ∧ c.toNat ≤ 57 ∧ (byteOf c).toNat = c.toNat := by
  have hdigit := Nat.isDigit_of_mem_toDigits (by decide) (by decide) hc
  simp only [Char.isDigit, Bool.and_eq_true, decide_eq_true_eq, UInt32.le_iff_toNat_le] at hdigit
  have hhigh : c.toNat ≤ 57 := hdigit.2
  refine ⟨hdigit.1, hhigh, ?_⟩
  simp only [byteOf, Nat.toUInt8, UInt8.toNat_ofNat']
  omega

theorem isDigit_of_mem_decimal {n : Nat} {b : UInt8} (hb : b ∈ decimal n) :
    48 ≤ b.toNat ∧ b.toNat ≤ 57 := by
  obtain ⟨c, hc, rfl⟩ := List.mem_map.mp hb
  obtain ⟨hlow, hhigh, hbyte⟩ := toNat_of_mem_toDigits hc
  rw [hbyte]
  exact ⟨hlow, hhigh⟩

theorem isPlain_decimal (n : Nat) : IsPlain (decimal n) := by
  intro b hb
  obtain ⟨hlow, hhigh⟩ := isDigit_of_mem_decimal hb
  refine ⟨?_, ?_, ?_⟩ <;>
  · rintro rfl
    revert hlow hhigh
    decide

theorem isPlain_decimalInt (i : Int) : IsPlain (decimalInt i) := by
  unfold decimalInt
  split
  · intro b hb
    rcases List.mem_cons.mp hb with rfl | hb
    · decide
    · exact isPlain_decimal _ b hb
  · exact isPlain_decimal _

theorem isPlain_ofBool (b : Bool) : IsPlain (ofBool b) := by
  unfold IsPlain
  cases b <;> decide +kernel

theorem ofBool_inj {a b : Bool} (h : ofBool a = ofBool b) : a = b := by
  revert h
  cases a <;> cases b <;> decide

/-- The characters of a decimal form come back from its bytes. -/
theorem map_decimal (n : Nat) :
    (decimal n).map (fun b => Char.ofNat b.toNat) = Nat.toDigits 10 n := by
  unfold decimal
  rw [List.map_map]
  conv_rhs => rw [← List.map_id (Nat.toDigits 10 n)]
  apply List.map_congr_left
  intro c hc
  simp [(toNat_of_mem_toDigits hc).2.2]

theorem decimal_inj {m n : Nat} (h : decimal m = decimal n) : m = n := by
  have hdigits : Nat.toDigits 10 m = Nat.toDigits 10 n := by
    rw [← map_decimal m, ← map_decimal n, h]
  rw [← Nat.ofDigitChars_ten_toDigits (n := m), hdigits, Nat.ofDigitChars_ten_toDigits]

theorem minus_notMem_decimal (n : Nat) : 45 ∉ decimal n := by
  intro hb
  have hlow := (isDigit_of_mem_decimal hb).1
  revert hlow
  decide

theorem decimalInt_inj {i j : Int} (h : decimalInt i = decimalInt j) : i = j := by
  unfold decimalInt at h
  split at h <;> split at h
  · have habs := decimal_inj (List.cons.inj h).2
    omega
  · exact absurd (h ▸ List.mem_cons_self) (minus_notMem_decimal _)
  · exact absurd (h ▸ List.mem_cons_self) (minus_notMem_decimal _)
  · have habs := decimal_inj h
    omega

end Text

namespace ReviewOptions

/-- The part of a fingerprint from the measure on, cut at the separators that end it. -/
def fingerprintTail (o : ReviewOptions) : Text :=
  let f := o.layout
  ((((((f.measure ++ 44 :: Text.ofBool f.indent) ++ 44 :: Text.ofBool f.mixedIndent)
    ++ 44 :: Text.decimalInt f.indentWidth.toInt) ++ 44 :: Text.decimalInt f.tabWidth.toInt)
    ++ 44 :: (Text.decimal f.severity.level.toNat ++ bytes ";nam"))
    ++ 61 :: (Text.decimal o.namingSeverity.level.toNat ++ bytes ";max"))
    ++ 61 :: Text.decimalInt o.maxDiagnostics.toInt

theorem fingerprint_eq (version : Text) (o : ReviewOptions) :
    o.fingerprint version = (bytes "v=" ++ version ++ bytes ";cls=") ++
      (Text.ofBool o.classifier.skipComments ++ 44 ::
        (Text.ofBool o.classifier.skipUsingDirectives ++ 44 ::
          (Text.ofBool o.classifier.enumerators ++ 59 ::
            (bytes "fmt=" ++
              (Text.decimalInt o.layout.maxLineLength.toInt ++ 44 :: o.fingerprintTail))))) := by
  have hfmt : bytes ";fmt=" = 59 :: bytes "fmt=" := by decide
  have hnam : bytes ";nam=" = bytes ";nam" ++ [61] := by decide
  have hmax : bytes ";max=" = bytes ";max" ++ [61] := by decide
  simp [fingerprint, fingerprintTail, commas, Text.joinWith, hfmt, hnam, hmax]

theorem fingerprint_ne_nil (version : Text) (o : ReviewOptions) : o.fingerprint version ≠ [] := by
  have hlead : bytes "v=" = [118, 61] := by decide
  rw [fingerprint_eq, hlead]
  simp

/-- The tail of a fingerprint determines its fields: the fields after the measure are cut off
from the back. -/
theorem fingerprintTail_inj {a b : ReviewOptions} (h : a.fingerprintTail = b.fingerprintTail) :
    a.layout.measure = b.layout.measure ∧ a.layout.indent = b.layout.indent ∧
    a.layout.mixedIndent = b.layout.mixedIndent ∧ a.layout.indentWidth = b.layout.indentWidth ∧
    a.layout.tabWidth = b.layout.tabWidth ∧ a.layout.severity = b.layout.severity ∧
    a.namingSeverity = b.namingSeverity ∧ a.maxDiagnostics = b.maxDiagnostics := by
  have hnumeral (n : Nat) (w : String) (hw : 61 ∉ bytes w) (hw' : 44 ∉ bytes w) :
      61 ∉ Text.decimal n ++ bytes w ∧ 44 ∉ Text.decimal n ++ bytes w := by
    simp only [List.mem_append, not_or]
    exact ⟨⟨(Text.isPlain_decimal n).equals, hw⟩, (Text.isPlain_decimal n).comma, hw'⟩
  have hmax (n : Nat) := hnumeral n ";max" (by decide) (by decide)
  have hnam (n : Nat) := hnumeral n ";nam" (by decide) (by decide)
  have hbool (x : Bool) := (Text.isPlain_ofBool x).comma
  have hint (i : Int) := Text.isPlain_decimalInt i
  unfold fingerprintTail at h
  obtain ⟨hlimit, h⟩ := Text.cut_back (hint _).equals (hint _).equals h
  obtain ⟨hnaming, h⟩ := Text.cut_back (hmax _).1 (hmax _).1 h
  obtain ⟨hseverity, h⟩ := Text.cut_back (hnam _).2 (hnam _).2 h
  obtain ⟨htab, h⟩ := Text.cut_back (hint _).comma (hint _).comma h
  obtain ⟨hwidth, h⟩ := Text.cut_back (hint _).comma (hint _).comma h
  obtain ⟨hmixed, h⟩ := Text.cut_back (hbool _) (hbool _) h
  obtain ⟨hindent, hmeasure⟩ := Text.cut_back (hbool _) (hbool _) h
  have hlevel {s t : Severity} {w : Text}
      (hs : Text.decimal s.level.toNat ++ w = Text.decimal t.level.toNat ++ w) : s = t := by
    have hnat := Text.decimal_inj (List.append_cancel_right hs)
    obtain ⟨m⟩ := s
    obtain ⟨n⟩ := t
    exact congrArg Severity.mk (UInt8.toNat_inj.mp hnat)
  exact ⟨hmeasure, Text.ofBool_inj hindent, Text.ofBool_inj hmixed,
    Int64.toInt_inj.mp (Text.decimalInt_inj hwidth), Int64.toInt_inj.mp (Text.decimalInt_inj htab),
    hlevel hseverity, hlevel hnaming, Int64.toInt_inj.mp (Text.decimalInt_inj hlimit)⟩

/-- The options are the same in every field. -/
structure Agrees (a b : ReviewOptions) : Prop where
  skipComments : a.classifier.skipComments = b.classifier.skipComments
  skipUsingDirectives : a.classifier.skipUsingDirectives = b.classifier.skipUsingDirectives
  enumerators : a.classifier.enumerators = b.classifier.enumerators
  maxLineLength : a.layout.maxLineLength = b.layout.maxLineLength
  measure : a.layout.measure = b.layout.measure
  indent : a.layout.indent = b.layout.indent
  mixedIndent : a.layout.mixedIndent = b.layout.mixedIndent
  indentWidth : a.layout.indentWidth = b.layout.indentWidth
  tabWidth : a.layout.tabWidth = b.layout.tabWidth
  severity : a.layout.severity = b.layout.severity
  namingSeverity : a.namingSeverity = b.namingSeverity
  maxDiagnostics : a.maxDiagnostics = b.maxDiagnostics

/-- There is no field that the options could differ in besides. -/
theorem Agrees.eq {a b : ReviewOptions} (h : a.Agrees b) : a = b := by
  obtain ⟨⟨ac, au, ae⟩, ⟨al, am, ai, ax, aw, at_, as⟩, an, ad⟩ := a
  obtain ⟨⟨bc, bu, be⟩, ⟨bl, bm, bi, bx, bw, bt, bs⟩, bn, bd⟩ := b
  obtain ⟨hc, hu, he, hl, hm, hi, hx, hw, ht, hs, hn, hd⟩ := h
  simp only at hc hu he hl hm hi hx hw ht hs hn hd
  rw [hc, hu, he, hl, hm, hi, hx, hw, ht, hs, hn, hd]

/-- Under one build version, options with the same fingerprint are the same in every field. -/
theorem agrees_of_fingerprint {version : Text} {a b : ReviewOptions}
    (h : a.fingerprint version = b.fingerprint version) : a.Agrees b := by
  have hbool (x : Bool) := Text.isPlain_ofBool x
  have hint (i : Int) := Text.isPlain_decimalInt i
  rw [fingerprint_eq, fingerprint_eq] at h
  obtain ⟨hcomments, h⟩ :=
    Text.cut_front (hbool _).comma (hbool _).comma (List.append_cancel_left h)
  obtain ⟨husing, h⟩ := Text.cut_front (hbool _).comma (hbool _).comma h
  obtain ⟨henumerators, h⟩ := Text.cut_front (hbool _).semicolon (hbool _).semicolon h
  obtain ⟨hlength, htail⟩ :=
    Text.cut_front (hint _).comma (hint _).comma (List.append_cancel_left h)
  obtain ⟨hmeasure, hindent, hmixed, hwidth, htab, hseverity, hnaming, hlimit⟩ :=
    fingerprintTail_inj htail
  exact
    { skipComments := Text.ofBool_inj hcomments
      skipUsingDirectives := Text.ofBool_inj husing
      enumerators := Text.ofBool_inj henumerators
      maxLineLength := Int64.toInt_inj.mp (Text.decimalInt_inj hlength)
      measure := hmeasure
      indent := hindent
      mixedIndent := hmixed
      indentWidth := hwidth
      tabWidth := htab
      severity := hseverity
      namingSeverity := hnaming
      maxDiagnostics := hlimit }

theorem fingerprint_inj {version : Text} {a b : ReviewOptions}
    (h : a.fingerprint version = b.fingerprint version) : a = b :=
  (agrees_of_fingerprint h).eq

end ReviewOptions

/-- Reviewers have one fingerprint exactly when both have a classifier of their own, or neither has
one and their options agree in every field, whatever the numbers, severities and the text of the
measure are. -/
theorem Reviewer.fingerprint_eq_iff (version : Text) (a b : Reviewer) :
    a.fingerprint version = b.fingerprint version ↔
      (a.classifier.isSome ∧ b.classifier.isSome) ∨
        (a.classifier = none ∧ b.classifier = none ∧ a.options.Agrees b.options) := by
  obtain ⟨oa, ca⟩ := a
  obtain ⟨ob, cb⟩ := b
  cases ca with
  | some ca =>
      cases cb with
      | some cb => simp [fingerprint]
      | none =>
          have hne := ob.fingerprint_ne_nil version
          simpa [fingerprint] using hne.symm
  | none =>
      cases cb with
      | some cb =>
          have hne := oa.fingerprint_ne_nil version
          simpa [fingerprint] using hne
      | none =>
          have hiff : oa.fingerprint version = ob.fingerprint version ↔ oa.Agrees ob := by
            refine ⟨ReviewOptions.agrees_of_fingerprint, ?_⟩
            intro h
            rw [h.eq]
          simpa [fingerprint] using hiff

end LineReview
