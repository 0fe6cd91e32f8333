import LineReview.Proofs.Review.Locality
import LineReview.Proofs.Classifier.Runs

/-!
# The names that pass

The table for variables, the rules of the other roles and the six shapes come to one
law: a name passes exactly if it is the lead that its site asks for, a capital letter,
and letters and digits after that (`check_closedForm`). The lead of a variable says what
the table leaves of the context: whether the variable is static never matters, and
whether it is a bool only where it is neither a member nor const.
-/

namespace LineReview

/-- The lead, one of `A`–`Z`, and then any number of `A`–`Z`, `a`–`z` and `0`–`9`. -/
def Text.IsPascalBehind (lead t : Text) : Prop :=
  ∃ u r, t = lead ++ u :: r ∧ (65 ≤ u ∧ u ≤ 90) ∧
    ∀ b ∈ r, (65 ≤ b ∧ b ≤ 90) ∨ (97 ≤ b ∧ b ≤ 122) ∨ (48 ≤ b ∧ b ≤ 57)

namespace Shape

theorem isCapital_iff {b : UInt8} : isCapital b = true ↔ 65 ≤ b ∧ b ≤ 90 := by
  simp [isCapital]

theorem isAlphanumeric_iff {b : UInt8} :
    isAlphanumeric b = true ↔
      (65 ≤ b ∧ b ≤ 90) ∨ (97 ≤ b ∧ b ≤ 122) ∨ (48 ≤ b ∧ b ≤ 57) := by
  simp [isAlphanumeric, Text.isLetter, Text.isDigit, or_assoc]

theorem isPascal_cons {u : UInt8} {r : Text} :
    isPascal (u :: r) = true ↔ isCapital u = true ∧ ∀ b ∈ r, isAlphanumeric b = true := by
  rw [isPascal, Bool.and_eq_true, List.all_eq_true]

theorem accepts_append (s : Shape) (t : Text) : s.accepts (bytes s.lead ++ t) = isPascal t := by
  rw [accepts, Text.strip?_self_append]

/-- A shape accepts what is PascalCase behind its lead, and nothing else. -/
theorem accepts_iff {s : Shape} {t : Text} :
    s.accepts t = true ↔ Text.IsPascalBehind (bytes s.lead) t := by
  constructor
  · intro h
    cases hstrip : Text.strip? t (bytes s.lead) with
    | none => simp [accepts, hstrip] at h
    | some rest =>
        rw [Text.eq_append_of_strip? hstrip] at h ⊢
        rw [accepts_append] at h
        cases rest with
        | nil => cases h
        | cons u r =>
            obtain ⟨hu, hr⟩ := isPascal_cons.mp h
            exact ⟨u, r, rfl, isCapital_iff.mp hu, fun b hb => isAlphanumeric_iff.mp (hr b hb)⟩
  · rintro ⟨u, r, rfl, hu, hr⟩
    rw [accepts_append, isPascal_cons]
    exact ⟨isCapital_iff.mpr hu, fun b hb => isAlphanumeric_iff.mpr (hr b hb)⟩

end Shape

/-- The letters that the name of a variable begins with. -/
def Context.lead (c : Context) : Text :=
  if c.inClass then bytes "_" ++ (if c.isConst then bytes "k" else [])
  else if c.isConst then bytes "k"
  else if c.isBool && c.isGlobal then bytes "kb"
  else if c.isBool then bytes "b"
  else []

/-- Of the rules for variables, the first that applies asks for the lead of the context. -/
theorem Rule.lead_select (c : Context) : bytes (Rule.select c).shape.lead = c.lead := by
  obtain ⟨inClass, isStatic, isConst, isBool, isGlobal⟩ := c
  cases inClass with
  | true => cases isStatic <;> cases isConst <;> rfl
  | false =>
      cases isConst with
      | true => rfl
      | false => cases isBool <;> cases isGlobal <;> rfl

namespace Site

/-- The letters that a name begins with, by the number of its role: 0 is a variable, 3 the name of
an enum and 4 a value of one. -/
def leadOf (role : UInt8) (c : Context) : Text :=
  if role = 0 then c.lead
  else if role = 3 ∨ role = 4 then bytes "k"
  else []

/-- The rule for a site asks for the lead of its role. A number of no role is judged like a
variable of which nothing is known, so there is no lead. -/
theorem lead_forSite (role : UInt8) (name : Text) (col : Int) (c : Context) :
    bytes (Rule.forSite ⟨.ofByte role, name, col, c⟩).shape.lead = leadOf role c := by
  unfold leadOf Role.ofByte
  split
  · exact Rule.lead_select c
  · rfl
  · rfl
  · rfl
  · rfl
  · rename_i hvariable _ _ henum hvalue
    rw [if_neg hvariable, if_neg (not_or.mpr ⟨henum, hvalue⟩)]
    exact Rule.lead_select {}

/-- A number that fits in 32 bits, and zero in place of any other. -/
def fitted (c : Int) : Int := if 0 ≤ c ∧ c < 4294967296 then c else 0

theorem toNat_reportedColumn (s : Site) : (s.reportedColumn.toNat : Int) = fitted (s.col + 1) := by
  unfold reportedColumn fitted
  dsimp only
  by_cases hfits : 0 ≤ s.col + 1 ∧ s.col + 1 < 4294967296
  · have hlt : (s.col + 1).toNat < 4294967296 := by omega
    have htoNat : (s.col + 1).toNat.toUInt32.toNat = (s.col + 1).toNat :=
      UInt32.toNat_ofNat_of_lt' hlt
    rw [if_pos hfits, if_pos (by simpa using hfits), htoNat]
    omega
  · rw [if_neg hfits, if_neg (by simpa using hfits)]
    rfl

/-- In 64 bits the last number is followed by one below zero, which does not fit either. -/
theorem fitted_toInt_add_one (i : Int64) : fitted (i + 1).toInt = fitted (i.toInt + 1) := by
  have hlow : -2 ^ 63 ≤ i.toInt := i.le_toInt
  have hhigh : i.toInt < 2 ^ 63 := i.toInt_lt
  rw [Int64.toInt_add, Int64.toInt_one]
  by_cases hlast : i.toInt + 1 = 2 ^ 63
  · rw [hlast]
    decide
  · rw [Int.bmod_eq_of_le (by omega) (by omega)]

theorem check_eq_none_iff {severity : Severity} {n : UInt32} {s : Site} :
    s.check severity n = none ↔ (Rule.forSite s).shape.accepts s.name = true := by
  simp [check]

/-- A name passes exactly if it is PascalCase behind the lead for its role and context. Any other
name gives one diagnostic, with the column counted from one if 32 bits hold it and zero else. It
does not matter whether the counting wraps in 64 bits. -/
theorem check_closedForm (severity : Severity) (n : UInt32) (role : UInt8) (name : Text) (col : Int)
    (c : Context) :
    (check severity n ⟨.ofByte role, name, col, c⟩ = none ↔
      Text.IsPascalBehind (leadOf role c) name) ∧
    (¬ Text.IsPascalBehind (leadOf role c) name →
      ∃ d, check severity n ⟨.ofByte role, name, col, c⟩ = some d ∧
        checkAll severity n [⟨.ofByte role, name, col, c⟩] = [d] ∧
        (d.col.toNat : Int) = fitted (col + 1) ∧
        ∀ i : Int64, i.toInt = col → (d.col.toNat : Int) = fitted (i + 1).toInt) := by
  have hpasses : check severity n ⟨.ofByte role, name, col, c⟩ = none ↔
      Text.IsPascalBehind (leadOf role c) name := by
    rw [check_eq_none_iff, Shape.accepts_iff, lead_forSite]
  refine ⟨hpasses, ?_⟩
  intro hname
  obtain ⟨d, hd⟩ := Option.ne_none_iff_exists'.mp (mt hpasses.mp hname)
  have hcol : (d.col.toNat : Int) = fitted (col + 1) := by
    rw [check_eq_some hd]
    exact toNat_reportedColumn _
  refine ⟨d, hd, ?_, hcol, ?_⟩
  · simp [checkAll, hd]
  · rintro i rfl
    rw [hcol, fitted_toInt_add_one]

end Site

end LineReview
