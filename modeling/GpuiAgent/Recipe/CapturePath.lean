import GpuiAgent.Host.Screenshot
import GpuiAgent.Recipe.Run

namespace GpuiAgent

open Framework

/-- The name of one entry of a directory, and of no home directory. -/
structure NormalComponent (s : String) : Prop where
  nonempty : s ≠ ""
  slash : '/' ∉ s.toList
  dot : s ≠ "."
  dotdot : s ≠ ".."
  tilde : startsWith s "~" = false

/-- A visible file name with a stem before its `.png`. -/
structure PngName (file : String) : Prop where
  stem : ∃ stem, stem ≠ "" ∧ file = stem ++ ".png"
  dash : startsWith file "-" = false
  dot : startsWith file "." = false

theorem pathComponents_piece {path s : String} (h : s ∈ pathComponents path) :
    s ≠ "" ∧ '/' ∉ s.toList ∧ s ≠ "." := by
  simp only [pathComponents, List.mem_filter, List.mem_map, Bool.and_eq_true, decide_eq_true_eq] at h
  obtain ⟨⟨piece, hpiece, rfl⟩, hne, hdot⟩ := h
  exact ⟨hne, by simpa using not_mem_of_mem_splitOn hpiece, hdot⟩

/-- What is behind a slash adds its own components. -/
theorem pathComponents_slash (dir rest : String) :
    pathComponents (dir ++ "/" ++ rest) = pathComponents dir ++ pathComponents rest := by
  have hlist : (dir ++ "/" ++ rest).toList = dir.toList ++ '/' :: rest.toList := by simp
  rw [pathComponents, hlist, List.splitOn_append_cons_self, List.map_append, List.filter_append,
    pathComponents, pathComponents]

theorem pathComponents_entry {s : String} (hs : NormalComponent s) : pathComponents s = [s] := by
  rw [pathComponents, List.splitOn_eq_singleton hs.slash]
  simp [hs.nonempty, hs.dot]

/-- The check asks for five bytes; four of them are the suffix. -/
theorem pngName_iff {file : String} : PngName file ↔
    (!endsWith file ".png" || decide (file.utf8ByteSize < 5)) = false ∧
      (startsWith file "-" || startsWith file ".") = false := by
  have hlen : ∀ stem : String,
      (stem ++ ".png").utf8ByteSize < 5 ↔ stem = "" := by
    intro stem
    have hpng : ".png".utf8ByteSize = 4 := by decide
    rw [String.utf8ByteSize_append, hpng, ← String.utf8ByteSize_eq_zero_iff]
    omega
  rw [Bool.or_eq_false_iff, Bool.or_eq_false_iff, Bool.not_eq_false', decide_eq_false_iff_not]
  constructor
  · rintro ⟨⟨stem, hne, rfl⟩, hdash, hdot⟩
    exact ⟨⟨endsWith_iff.mpr ⟨stem, rfl⟩, fun h => hne ((hlen stem).mp h)⟩, hdash, hdot⟩
  · rintro ⟨⟨hends, hsize⟩, hdash, hdot⟩
    obtain ⟨stem, rfl⟩ := endsWith_iff.mp hends
    exact ⟨⟨stem, fun h => hsize ((hlen stem).mpr h), rfl⟩, hdash, hdot⟩

theorem normal_of_checked {path : String}
    (h : ((pathComponents path).any fun s => decide (s = "..") || startsWith s "~") = false) :
    ∀ s ∈ pathComponents path, NormalComponent s := by
  intro s hs
  have hcheck := List.any_eq_false.mp h s hs
  rw [Bool.not_eq_true, Bool.or_eq_false_iff, decide_eq_false_iff_not] at hcheck
  obtain ⟨hne, hslash, hdot⟩ := pathComponents_piece hs
  exact ⟨hne, hslash, hdot, hcheck.1, hcheck.2⟩

theorem confineScreenshotPathIn_ok {client : String} {base dest : List String}
    (h : confineScreenshotPathIn client base = .ok dest) :
    ∃ rel file, dest = base ++ rel ∧ (∀ s ∈ rel, NormalComponent s) ∧
      rel.getLast? = some file ∧ PngName file := by
  simp only [confineScreenshotPathIn, bind, Except.bind, throw, throwThe, MonadExceptOf.throw,
    pure, Except.pure] at h
  cases hpath : requireScreenshotPath (some client) with
  | error e => simp [hpath] at h
  | ok path =>
    simp only [hpath] at h
    split_ifs at h with habs hnormal
    cases hlast : (pathComponents path).getLast? with
    | none => simp [hlast] at h
    | some file =>
      simp only [hlast] at h
      split_ifs at h with hpng hvisible
      rw [Bool.not_eq_true] at hnormal hpng hvisible
      exact ⟨_, file, (Except.ok.inj h).symm, normal_of_checked hnormal, hlast,
        pngName_iff.mpr ⟨hpng, hvisible⟩⟩

theorem nameChar_plain {c : Char} (h : OpSchema.nameChar c = true) :
    isWhitespace c = false ∧ c ≠ '/' := by
  have hrange := OpSchema.nameChar_toNat h
  constructor
  · simp only [isWhitespace, Bool.or_eq_false_iff, Bool.and_eq_false_iff, decide_eq_false_iff_not]
    omega
  · rintro rfl
    exact hrange.2.2 rfl

/-- A name of plain characters that begins with a digit is taken as it is. -/
theorem confineScreenshotPathIn_name {file : String} {digit : Char} {rest : List Char}
    (hfile : file.toList = digit :: rest) (hdigit : digit.isDigit = true)
    (hchars : ∀ c ∈ file.toList, OpSchema.nameChar c = true) (hpng : endsWith file ".png" = true)
    (base : List String) :
    NormalComponent file ∧ confineScreenshotPathIn file base = .ok (base ++ [file]) := by
  have htrim : trim file = file := trim_eq_self fun c hc => (nameChar_plain (hchars c hc)).1
  have hhead : ∀ d : Char, d.isDigit = false → startsWith file (.singleton d) = false := by
    intro d hd
    refine startsWith_head hfile fun he => ?_
    rw [he, hd] at hdigit
    exact Bool.false_ne_true hdigit
  have hne : ∀ s : String, s.toList.head?.all (fun d => !d.isDigit) = true → file ≠ s := by
    intro s hs he
    rw [← he, hfile, List.head?_cons, Option.all_some, hdigit] at hs
    exact absurd hs (by decide)
  have hnormal : NormalComponent file :=
    ⟨hne "" (by decide), fun h => (nameChar_plain (hchars _ h)).2 rfl, hne "." (by decide),
      hne ".." (by decide), hhead '~' (by decide)⟩
  have hname : PngName file := by
    obtain ⟨stem, rfl⟩ := endsWith_iff.mp hpng
    refine ⟨⟨stem, ?_, rfl⟩, hhead '-' (by decide), hhead '.' (by decide)⟩
    rintro rfl
    exact hne ("" ++ ".png") (by decide) rfl
  have hpath : requireScreenshotPath (some file) = .ok file := by
    have hempty : file.isEmpty = false := by simpa using hnormal.nonempty
    rw [requireScreenshotPath, Option.map_some, htrim, Option.filter_some, hempty]
    rfl
  obtain ⟨hsuffix, hvisible⟩ := pngName_iff.mp hname
  refine ⟨hnormal, ?_⟩
  simp only [confineScreenshotPathIn, bind, Except.bind, throw, throwThe, MonadExceptOf.throw,
    pure, Except.pure, hpath, pathComponents_entry hnormal, List.getLast?_singleton,
    List.any_cons, List.any_nil, hnormal.dotdot, hnormal.tilde, hsuffix, hvisible,
    show startsWith file "/" = false from hhead '/' (by decide)]
  rfl

theorem sanitizeStepId_chars (id : String) :
    ∀ c ∈ (sanitizeStepId id).toList, OpSchema.nameChar c = true := by
  intro c hc
  rw [sanitizeStepId] at hc
  split_ifs at hc
  · exact List.all_eq_true.mp (by decide : "step".toList.all OpSchema.nameChar = true) c hc
  · rw [String.toList_map, List.mem_map] at hc
    obtain ⟨ch, -, rfl⟩ := hc
    split_ifs with hch
    · simp only [Bool.or_eq_true, decide_eq_true_eq] at hch
      simp only [OpSchema.nameChar, Bool.or_eq_true, decide_eq_true_eq]
      tauto
    · decide

/-- At least three digits, a dash, the sanitized id and the suffix. -/
theorem stepFile_toList (index : Nat) (stepId : String) : ∃ digit digits,
    (stepFile index stepId).toList =
      digit :: digits ++ '-' :: (sanitizeStepId stepId).toList ++ ".png".toList ∧
      ∀ c ∈ digit :: digits, c.isDigit = true := by
  have hlist : (stepFile index stepId).toList =
      (List.replicate (3 - (toString index).length) '0' ++ Nat.toDigits 10 index) ++
        '-' :: (sanitizeStepId stepId).toList ++ ".png".toList := by
    simp [stepFile, toList_pushn, toString]
  have hdigits : ∀ c ∈ List.replicate (3 - (toString index).length) '0' ++ Nat.toDigits 10 index,
      c.isDigit = true := by
    intro c hc
    rcases List.mem_append.mp hc with hc | hc
    · rw [List.eq_of_mem_replicate hc]
      decide
    · exact Nat.isDigit_of_mem_toDigits (by decide) (by decide) hc
  cases hpad : List.replicate (3 - (toString index).length) '0' ++ Nat.toDigits 10 index with
  | nil => exact absurd (List.append_eq_nil_iff.mp hpad).2 Nat.toDigits_ne_nil
  | cons digit digits => exact ⟨digit, digits, by rw [hlist, hpad], hpad ▸ hdigits⟩

theorem stepFile_confined (index : Nat) (stepId : String) (base : List String) :
    NormalComponent (stepFile index stepId) ∧
      confineScreenshotPathIn (stepFile index stepId) base =
        .ok (base ++ [stepFile index stepId]) := by
  obtain ⟨digit, digits, hlist, hdigits⟩ := stepFile_toList index stepId
  have hchars : ∀ c ∈ (stepFile index stepId).toList, OpSchema.nameChar c = true := by
    rw [hlist]
    intro c hc
    simp only [List.mem_append, List.mem_cons] at hc
    have hdig : ∀ c : Char, c.isDigit = true → OpSchema.nameChar c = true := by
      intro c hc
      simp [OpSchema.nameChar, Char.isAlphanum, hc]
    rcases hc with (hc | rfl | hc) | hc
    · exact hdig c (hdigits c (List.mem_cons.mpr hc))
    · decide
    · exact sanitizeStepId_chars stepId c hc
    · exact List.all_eq_true.mp (by decide : ".png".toList.all OpSchema.nameChar = true) c hc
  refine confineScreenshotPathIn_name hlist (hdigits digit List.mem_cons_self) hchars ?_ base
  rw [endsWith, hlist, List.isSuffixOf_iff_suffix]
  exact List.suffix_append _ _

/-- The name of the file a picture is written to. -/
theorem ScreenshotCapture.stepPath_file (capture : ScreenshotCapture) (index : Nat)
    (stepId : String) :
    (pathComponents (capture.stepPath index stepId)).getLast? = some (stepFile index stepId) := by
  have hentry := pathComponents_entry (stepFile_confined index stepId []).1
  have hslash : ∀ dir : String,
      (pathComponents (dir ++ "/" ++ stepFile index stepId)).getLast? =
        some (stepFile index stepId) := by
    intro dir
    rw [pathComponents_slash, hentry, List.getLast?_concat]
  rw [ScreenshotCapture.stepPath]
  split_ifs with hdir
  · rcases Bool.or_eq_true_iff.mp hdir with hempty | hends
    · rw [String.isEmpty_iff.mp hempty, String.empty_append, hentry, List.getLast?_singleton]
    · obtain ⟨dir, hstem⟩ := endsWith_iff.mp hends
      rw [hstem]
      exact hslash dir
  · exact hslash capture.dir

/-- A client's path is taken only below the base, under a visible PNG name; the names of the steps'
own pictures are all taken. -/
theorem screenshot_path_confined :
    (∀ (client : String) (base dest : List String), confineScreenshotPathIn client base = .ok dest →
      ∃ dirs file, dest = base ++ dirs ++ [file] ∧ (∀ s ∈ dirs ++ [file], NormalComponent s) ∧
        PngName file) ∧
    ∀ (capture : ScreenshotCapture) (index : Nat) (stepId : String), ∃ file,
      (pathComponents (capture.stepPath index stepId)).getLast? = some file ∧
        ∀ base, confineScreenshotPathIn file base = .ok (base ++ [file]) := by
  constructor
  · intro client base dest h
    obtain ⟨rel, file, rfl, hnormal, hlast, hpng⟩ := confineScreenshotPathIn_ok h
    obtain ⟨dirs, rfl⟩ := List.getLast?_eq_some_iff.mp hlast
    exact ⟨dirs, file, (List.append_assoc base dirs [file]).symm, hnormal, hpng⟩
  · intro capture index stepId
    exact ⟨stepFile index stepId, capture.stepPath_file index stepId,
      fun base => (stepFile_confined index stepId base).2⟩

theorem screenshot_path_confined_sub :
    confineScreenshotPathIn " ./sub//open.png" ["tmp"] = .ok ["tmp", "sub", "open.png"] ∧
      (∃ dirs file, ["tmp", "sub", "open.png"] = ["tmp"] ++ dirs ++ [file] ∧
        (∀ s ∈ dirs ++ [file], NormalComponent s) ∧ PngName file) ∧
      ∃ file, (pathComponents (ScreenshotCapture.stepPath ⟨"out", false⟩ 7 "a/b")).getLast? =
          some file ∧ ∀ base, confineScreenshotPathIn file base = .ok (base ++ [file]) := by
  have hok : confineScreenshotPathIn " ./sub//open.png" ["tmp"] =
      .ok ["tmp", "sub", "open.png"] := by decide +kernel
  exact ⟨hok, screenshot_path_confined.1 _ _ _ hok, screenshot_path_confined.2 _ 7 "a/b"⟩

end GpuiAgent
