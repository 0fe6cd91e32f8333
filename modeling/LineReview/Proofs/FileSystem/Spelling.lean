import LineReview.Proofs.FileSystem.Names

/-!
# Bytes of spelled paths

However a path is spelled, it consists of bytes of the path and of the working
directory, and of slashes and dots (`of_mem_format`).
-/

namespace LineReview

namespace Text

theorem mem_joinWith {sep : Text} {ps : List Text} {b : UInt8} :
    (∃ p ∈ ps, b ∈ p) → b ∈ joinWith sep ps := by
  rintro ⟨p, hp, hb⟩
  induction ps with
  | nil => cases hp
  | cons q qs ih =>
      cases qs with
      | nil => exact List.mem_singleton.mp hp ▸ hb
      | cons r rs =>
          rw [joinWith_cons (List.cons_ne_nil r rs)]
          rcases List.mem_cons.mp hp with rfl | hp
          · exact List.mem_append_left _ (List.mem_append_left _ hb)
          · exact List.mem_append_right _ (ih hp)

theorem of_mem_joinWith {sep : Text} {ps : List Text} {b : UInt8} (h : b ∈ joinWith sep ps) :
    b ∈ sep ∨ ∃ p ∈ ps, b ∈ p := by
  induction ps with
  | nil => cases h
  | cons q qs ih =>
      cases qs with
      | nil => exact .inr ⟨q, List.mem_cons_self, h⟩
      | cons r rs =>
          rw [joinWith_cons (List.cons_ne_nil r rs), List.mem_append, List.mem_append] at h
          rcases h with (hq | hsep) | hrest
          · exact .inr ⟨q, List.mem_cons_self, hq⟩
          · exact .inl hsep
          · refine (ih hrest).imp_right ?_
            rintro ⟨p, hp, hb⟩
            exact ⟨p, List.mem_cons_of_mem _ hp, hb⟩

theorem mem_of_mem_splitOn {sep : UInt8} {t p : Text} {b : UInt8} (hp : p ∈ splitOn sep t)
    (hb : b ∈ p) : b ∈ t := by
  rw [← joinWith_splitOn sep t]
  exact mem_joinWith ⟨p, hp, hb⟩

end Text

namespace Path

section Bytes

variable {c : UInt8}

theorem of_mem_foldl_descend {rooted : Bool} {ns st : List Text} {n : Text}
    (h : n ∈ ns.foldl (descend rooted) st) : n ∈ st ∨ n ∈ ns ∨ n = up := by
  induction ns generalizing st with
  | nil => exact .inl h
  | cons m ns ih =>
      rcases ih h with hstep | hrest | hup
      · unfold descend at hstep
        split at hstep
        · exact .inl hstep
        split at hstep
        · split at hstep
          · split at hstep
            · cases hstep
            · exact .inr (.inr (List.mem_singleton.mp hstep))
          · rename_i top rest
            split at hstep
            · rcases List.mem_cons.mp hstep with hup | hst
              · exact .inr (.inr hup)
              · exact .inl hst
            · exact .inl (List.mem_cons_of_mem _ hstep)
        · rcases List.mem_cons.mp hstep with rfl | hst
          · exact .inr (.inl List.mem_cons_self)
          · exact .inl hst
      · exact .inr (.inl (List.mem_cons_of_mem _ hrest))
      · exact .inr (.inr hup)

theorem mem_of_mem_names (hdot : c ≠ 46) {p n : Text} (hn : n ∈ names p) (hc : c ∈ n) : c ∈ p := by
  rcases of_mem_foldl_descend (List.mem_reverse.mp hn) with hnil | hpiece | rfl
  · cases hnil
  · exact Text.mem_of_mem_splitOn hpiece hc
  · rw [up, List.mem_pair] at hc
    exact absurd hc (by simp [hdot])

theorem of_mem_ofNames (hdot : c ≠ 46) (hslash : c ≠ 47) {rooted : Bool} {ns : List Text}
    (h : c ∈ ofNames rooted ns) : ∃ n ∈ ns, c ∈ n := by
  have hjoin (hc : c ∈ Text.joinWith [47] ns) : ∃ n ∈ ns, c ∈ n :=
    (Text.of_mem_joinWith hc).resolve_left fun hsep => hslash (List.mem_singleton.mp hsep)
  unfold ofNames at h
  split at h
  · exact hjoin ((List.mem_cons.mp h).resolve_left hslash)
  split at h
  · exact absurd (List.mem_singleton.mp h) hdot
  · exact hjoin h

theorem mem_of_mem_clean (hdot : c ≠ 46) (hslash : c ≠ 47) {p : Text} (h : c ∈ clean p) :
    c ∈ p := by
  obtain ⟨n, hn, hc⟩ := of_mem_ofNames hdot hslash h
  exact mem_of_mem_names hdot hn hc

theorem of_mem_absolute (hdot : c ≠ 46) (hslash : c ≠ 47) {cwd p : Text}
    (h : c ∈ absolute cwd p) : c ∈ cwd ∨ c ∈ p := by
  unfold absolute at h
  split at h
  · exact .inr (mem_of_mem_clean hdot hslash h)
  · have hjoined := List.mem_append.mp (mem_of_mem_clean hdot hslash h)
    exact hjoined.imp_right fun hc => (List.mem_cons.mp hc).resolve_left hslash

theorem mem_of_mem_lastName (hdot : c ≠ 46) (hslash : c ≠ 47) {p : Text} (h : c ∈ lastName p) :
    c ∈ p := by
  unfold lastName at h
  split at h
  · rename_i n hn
    exact mem_of_mem_names hdot (List.mem_of_getLast? hn) h
  split at h
  · exact absurd (List.mem_singleton.mp h) hslash
  · exact absurd (List.mem_singleton.mp h) hdot

theorem of_mem_way {base target : List Text} {n : Text} (h : n ∈ way base target) :
    n = up ∨ n ∈ target := by
  fun_induction way base target with
  | case1 base t target ih => exact (ih h).imp_right (List.mem_cons_of_mem t)
  | case2 | case3 => exact (List.mem_append.mp h).imp_left List.eq_of_mem_replicate

theorem of_mem_relative (hdot : c ≠ 46) (hslash : c ≠ 47) {cwd base p : Text}
    (h : c ∈ relative cwd base p) : c ∈ cwd ∨ c ∈ p := by
  rw [relative, inside?] at h
  split at h
  · exact of_mem_absolute hdot hslash h
  · rw [Option.getD_some, between] at h
    obtain ⟨n, hn, hc⟩ := of_mem_ofNames hdot hslash h
    rcases of_mem_way hn with rfl | hn
    · rw [up, List.mem_pair] at hc
      exact absurd hc (by simp [hdot])
    · exact of_mem_absolute hdot hslash (mem_of_mem_names hdot hn hc)

/-- However a path is spelled, its bytes are those of the path and of the working directory. -/
theorem of_mem_format (hdot : c ≠ 46) (hslash : c ≠ 47) {cwd base p : Text} {mode : Mode}
    (h : c ∈ format cwd mode base p) : c ∈ cwd ∨ c ∈ p := by
  cases mode with
  | given => exact .inr (mem_of_mem_clean hdot hslash h)
  | auto =>
      rw [format] at h
      split at h
      · exact .inr (mem_of_mem_clean hdot hslash h)
      · exact .inr (mem_of_mem_lastName hdot hslash h)
  | absolute => exact of_mem_absolute hdot hslash h
  | relative => exact of_mem_relative hdot hslash h
  | basename => exact .inr (mem_of_mem_lastName hdot hslash h)

end Bytes

end Path

end LineReview
