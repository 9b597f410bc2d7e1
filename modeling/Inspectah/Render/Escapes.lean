import Inspectah.Render.Containerfile

/-!
What the guards give. A value a guard lets through is clean where it is written bare.
-/
namespace Inspectah

abbrev BareClean (value : String) : Prop := BuildScript.Clean isShellUnsafe .bare value

theorem bareClean_of_all {value : String} {p : Char → Bool} (all : value.toList.all p)
    (h : ∀ c, p c → isShellUnsafe c = false) : BareClean value := by
  simp only [BuildScript.Clean, BuildScript.Quoting.admits, List.all_eq_true] at all ⊢
  intro c mem
  simp [h c (all c mem)]

theorem isShellUnsafe_alphanum {c : Char} (h : c.isAlphanum) : isShellUnsafe c = false := by
  have apart : ∀ d : Char, d.isAlphanum = false → c ≠ d := by
    intro d hd e
    simp [← e, h] at hd
  have space := Text.isWhitespace_alphanum h
  unfold isShellUnsafe
  simp only [space, Bool.or_false, List.contains_eq_mem, decide_eq_false_iff_not]
  intro mem
  have listed : ∀ d ∈ [';', '&', '|', '$', BACKTICK, '"', APOSTROPHE, '\\', '<', '>', '(', ')',
      Char.ofNat 123, Char.ofNat 125], d.isAlphanum = false := Text.forall_of_all (by decide)
  exact apart c (listed c mem) rfl

theorem isShellUnsafe_pathChar {c : Char} (h : isAllowedPathChar c) : isShellUnsafe c = false := by
  simp only [isAllowedPathChar, Bool.or_eq_true, List.contains_eq_mem, decide_eq_true_eq] at h
  cases h with
  | inl alnum => exact isShellUnsafe_alphanum alnum
  | inr listed =>
    have each : ∀ d ∈ ['.', '_', '+', '~', '^', '@', ':', ',', '-', '/'],
        isShellUnsafe d = false := Text.forall_of_all (by decide)
    exact each c listed

theorem isShellUnsafe_tokenChar {c : Char} (h : isAllowedTokenChar c) : isShellUnsafe c = false := by
  simp only [isAllowedTokenChar, Bool.or_eq_true, beq_iff_eq] at h
  obtain ((alnum | rfl) | rfl) | rfl := h
  · exact isShellUnsafe_alphanum alnum
  all_goals decide

theorem findIdx?_none_all {p : Char → Bool} {cs : List Char}
    (h : (cs.findIdx? fun c => !p c) = none) : cs.all p := by
  rw [List.findIdx?_eq_none_iff] at h
  simpa using h

theorem exportPath_clean (path : ExportPath) : BareClean path.text := by
  have admitted := path.admitted
  unfold exportPathFault at admitted
  split at admitted
  · simp at admitted
  split at admitted
  · simp at admitted
  split at admitted
  · simp at admitted
  split at admitted
  · simp at admitted
  next all => exact bareClean_of_all (findIdx?_none_all all) fun c => isShellUnsafe_pathChar

theorem exportToken_clean (token : ExportToken) : BareClean token.text := by
  have admitted := token.admitted
  unfold exportTokenFault at admitted
  split at admitted
  · simp at admitted
  split at admitted
  · simp at admitted
  rw [Option.map_eq_none_iff] at admitted
  exact bareClean_of_all (findIdx?_none_all admitted) fun c => isShellUnsafe_tokenChar

end Inspectah
