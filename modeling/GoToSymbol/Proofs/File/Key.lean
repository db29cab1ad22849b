import GoToSymbol.File.Reference
import GoToSymbol.Proofs.Text.Pieces
import GoToSymbol.Proofs.Text.Percent
import Mathlib.Data.List.TakeWhile

namespace GoToSymbol.File

open Text

namespace Path

/-- Not empty, no lone dot, and no slash. -/
def IsComponent (c : List Char) : Prop := c ≠ [] ∧ c ≠ ['.'] ∧ '/' ∉ c

instance (c : List Char) : Decidable (IsComponent c) := inferInstanceAs (Decidable (_ ∧ _ ∧ _))

/-- What can stand in a path is all that stands in this one. -/
def IsNormal (p : Path) : Prop := ∀ c ∈ p.components, IsComponent c

instance (p : Path) : Decidable p.IsNormal :=
  inferInstanceAs (Decidable (∀ c ∈ p.components, IsComponent c))

theorem mem_components_ofText {s c : List Char} :
    c ∈ (ofText s).components ↔ c ∈ splitOn '/' s ∧ c ≠ [] ∧ c ≠ ['.'] := by
  simp [ofText]

theorem isNormal_ofText (s : List Char) : (ofText s).IsNormal := by
  intro c hc
  obtain ⟨hpiece, hempty, hdot⟩ := mem_components_ofText.mp hc
  exact ⟨hempty, hdot, sep_not_mem_of_mem_splitOn hpiece⟩

theorem IsNormal.join {base p : Path} (hbase : base.IsNormal) (hp : p.IsNormal) :
    (base.join p).IsNormal := by
  unfold Path.join
  split
  · exact hp
  · intro c hc
    rcases List.mem_append.mp hc with hc | hc
    · exact hbase c hc
    · exact hp c hc

theorem isAbsolute_join {base : Path} (h : base.isAbsolute = true) (p : Path) :
    (base.join p).isAbsolute = true := by
  unfold join
  split
  · assumption
  · exact h

/-- Leading slashes tell the root, unless one more follows. -/
theorem rootOf_append (r : Root) {s : List Char} (h : s.head? ≠ some '/') :
    rootOf (rootText r ++ s) = r := by
  cases s with
  | nil => cases r <;> rfl
  | cons c s =>
    have hc : c ≠ '/' := by simpa using h
    cases r with
    | relative => simp [rootOf, rootText, hc]
    | single => simp [rootOf, rootText, hc]
    | double => simp [rootOf, rootText, hc]

theorem head?_joinWith {ps : List (List Char)} (h : ∀ c ∈ ps, IsComponent c) :
    (joinWith '/' ps).head? ≠ some '/' := by
  cases ps with
  | nil => simp [joinWith]
  | cons p ps =>
    obtain ⟨hempty, _, hslash⟩ := h p List.mem_cons_self
    obtain ⟨c, cs, rfl⟩ := List.exists_cons_of_ne_nil hempty
    have hhead : (joinWith '/' ((c :: cs) :: ps)).head? = some c := by
      cases ps <;> rfl
    rw [hhead]
    intro hc
    exact hslash (Option.some.inj hc ▸ List.mem_cons_self)

theorem components_slash (s : List Char) :
    (ofText ('/' :: s)).components = (ofText s).components := by
  simp [ofText, splitOn]

theorem components_rootText (r : Root) (s : List Char) :
    (ofText (rootText r ++ s)).components = (ofText s).components := by
  cases r with
  | relative => rfl
  | single => exact components_slash s
  | double => exact (components_slash ('/' :: s)).trans (components_slash s)

theorem components_joinWith {ps : List (List Char)} (h : ∀ c ∈ ps, IsComponent c) :
    (ofText (joinWith '/' ps)).components = ps := by
  by_cases hnil : ps = []
  · subst hnil
    rfl
  · have hpieces : splitOn '/' (joinWith '/' ps) = ps :=
      splitOn_joinWith hnil fun c hc => (h c hc).2.2
    simp only [ofText, hpieces]
    refine List.filter_eq_self.mpr fun c hc => ?_
    obtain ⟨hempty, hdot, _⟩ := h c hc
    simp [hempty, hdot]

/-- A normal path comes back from its text. -/
theorem ofText_text {p : Path} (h : p.IsNormal) : ofText p.text = p := by
  unfold text
  split
  -- Only the empty relative path has a text that does not show its components.
  · next hhere =>
    obtain ⟨root, components⟩ := p
    obtain ⟨rfl, rfl⟩ := hhere
    rfl
  · have hroot : (ofText (rootText p.root ++ joinWith '/' p.components)).root = p.root :=
      rootOf_append p.root (head?_joinWith h)
    have hcomponents : (ofText (rootText p.root ++ joinWith '/' p.components)).components =
        p.components := by
      rw [components_rootText, components_joinWith h]
    exact congrArg₂ Path.mk hroot hcomponents

/-- The normal paths are those that some text names. -/
theorem isNormal_iff {p : Path} : p.IsNormal ↔ ∃ s, ofText s = p := by
  constructor
  · exact fun h => ⟨p.text, ofText_text h⟩
  · rintro ⟨s, rfl⟩
    exact isNormal_ofText s

theorem text_inj {p q : Path} (hp : p.IsNormal) (hq : q.IsNormal) : p.text = q.text ↔ p = q := by
  constructor
  · intro h
    rw [← ofText_text hp, h, ofText_text hq]
  · exact congrArg text

/-- The root directory. -/
def top : Path := ⟨.single, []⟩

/-- The number of slashes at the front. -/
def slashes (s : List Char) : Nat := (s.takeWhile (· == '/')).length

/-- What stands between the slashes, but for what is empty or a lone dot. -/
def parts (s : List Char) : List (List Char) :=
  (List.splitOn '/' s).filter fun c => c ≠ [] ∧ c ≠ ['.']

/-- The root of a path from the root directory: two slashes only if the path says so. -/
def rootFromTop (double : Prop) [Decidable double] : Root := if double then .double else .single

/-- An absolute path as it is spelled: its slashes at the front, then its components with a slash
between neighbours. -/
def spelling (p : Path) : List Char :=
  (if p.root = .double then ['/', '/'] else ['/']) ++ ['/'].intercalate p.components

theorem slashes_slash (s : List Char) : slashes ('/' :: s) = slashes s + 1 := by
  simp [slashes]

theorem slashes_eq_zero {s : List Char} (h : ∀ rest, s = '/' :: rest → False) : slashes s = 0 := by
  cases s with
  | nil => rfl
  | cons c s =>
    have hc : c ≠ '/' := fun heq => h s (heq ▸ rfl)
    simp [slashes, hc]

theorem rootOf_eq_double_iff (s : List Char) : rootOf s = .double ↔ slashes s = 2 := by
  unfold rootOf
  split
  · simp [slashes_slash]
  · next rest hmore => simp [slashes_slash, slashes_eq_zero hmore]
  · next rest _ hmore => simp [slashes_slash, slashes_eq_zero hmore]
  · next hrelative => simp [slashes_eq_zero hrelative]

theorem top_join (p : Path) : top.join p = ⟨rootFromTop (p.root = .double), p.components⟩ := by
  obtain ⟨root, components⟩ := p
  cases root <;> rfl

theorem top_join_ofText (s : List Char) :
    top.join (ofText s) = ⟨rootFromTop (slashes s = 2), parts s⟩ := by
  have hroot : (ofText s).root = .double ↔ slashes s = 2 := rootOf_eq_double_iff s
  have hparts : (ofText s).components = parts s := by
    simp only [ofText, parts, splitOn_eq]
    congr 1
    funext c
    cases c <;> simp [bne, beq_eq_decide]
  rw [top_join, hparts]
  simp only [rootFromTop, hroot]

theorem text_of_absolute {p : Path} (h : p.isAbsolute = true) : p.text = spelling p := by
  obtain ⟨root, components⟩ := p
  cases root with
  | relative => simp [isAbsolute] at h
  | single => simp [text, spelling, rootText, joinWith_eq]
  | double => simp [text, spelling, rootText, joinWith_eq]

end Path

/-- A text of more than two characters that begins with a scheme: a letter, then letters, digits,
plus signs, dots and hyphens up to a colon. -/
def IsUri (s : List Char) : Prop :=
  2 < s.length ∧ ∃ c name rest, s = c :: (name ++ ':' :: rest) ∧
    isAsciiLetter c = true ∧ ∀ d ∈ name, isSchemeChar d = true

theorem hasScheme_iff {s : List Char} : hasScheme s = true ↔
    ∃ c name rest, s = c :: (name ++ ':' :: rest) ∧
      isAsciiLetter c = true ∧ ∀ d ∈ name, isSchemeChar d = true := by
  constructor
  · intro h
    cases s with
    | nil => simp [hasScheme] at h
    | cons c tail =>
      obtain ⟨hletter, hcolon⟩ := Bool.and_eq_true_iff.mp h
      split at hcolon
      · next rest hrest =>
        refine ⟨c, tail.takeWhile isSchemeChar, rest, ?_, hletter, fun d => List.mem_takeWhile_imp⟩
        rw [← hrest, List.takeWhile_append_dropWhile]
      · simp at hcolon
  · rintro ⟨c, name, rest, rfl, hletter, hname⟩
    have hcolon : (name ++ ':' :: rest).dropWhile isSchemeChar = ':' :: rest := by
      rw [List.dropWhile_append_of_pos hname, List.dropWhile_cons_of_neg (by decide)]
    simp [hasScheme, hletter, hcolon]

theorem isUri_iff {s : List Char} : IsUri s ↔ 2 < s.length ∧ hasScheme s = true := by
  rw [IsUri, hasScheme_iff]

instance (s : List Char) : Decidable (IsUri s) := decidable_of_iff _ isUri_iff.symm

theorem textUri_of_isUri {s : String} (cwd : Path) (h : IsUri s.toList) : textUri cwd s = s :=
  if_pos (isUri_iff.mp h)

theorem textUri_of_not_isUri {s : String} (cwd : Path) (h : ¬IsUri s.toList) :
    textUri cwd s = String.ofList (pathUri cwd (.ofText s.toList)) :=
  if_neg (isUri_iff.not.mp h)

theorem isUri_pathUri (cwd p : Path) : IsUri (pathUri cwd p) := by
  have hfile : pathUri cwd p = "file://".toList ++ percentEncode (cwd.join p).text := rfl
  rw [hfile]
  constructor
  · rw [List.length_append]
    exact Nat.lt_add_right _ (by decide)
  · have hname : ['i', 'l', 'e'].all isSchemeChar = true := by decide
    exact ⟨'f', ['i', 'l', 'e'], '/' :: '/' :: _, rfl, by decide, List.all_eq_true.mp hname⟩

theorem isUri_textUri (cwd : Path) (s : String) : IsUri (textUri cwd s).toList := by
  by_cases h : IsUri s.toList
  · rwa [textUri_of_isUri cwd h]
  · rw [textUri_of_not_isUri cwd h, String.toList_ofList]
    exact isUri_pathUri cwd _

theorem isUri_uri (cwd : Path) (r : Reference) : IsUri (uri cwd r).toList := by
  cases r with
  | text s => exact isUri_textUri cwd s
  | path p =>
    rw [uri, String.toList_ofList]
    exact isUri_pathUri cwd p
  | check c => exact isUri_textUri cwd c.path

/-- Two paths have the same URI if and only if they are the same seen from the current directory. -/
theorem pathUri_inj {cwd p q : Path} (hp : (cwd.join p).IsNormal) (hq : (cwd.join q).IsNormal) :
    pathUri cwd p = pathUri cwd q ↔ cwd.join p = cwd.join q := by
  rw [← Path.text_inj hp hq]
  constructor
  · exact fun h => percentEncode_injective (List.append_cancel_left h)
  · exact congrArg fun s => "file://".toList ++ percentEncode s

/-- Where a reference that is no URI leads from the root directory: exactly two slashes at the front
are kept, and so is every component but the empty ones and lone dots. -/
inductive Leads : Reference → Path → Prop
  | text {s : String} (h : ¬IsUri s.toList) :
    Leads (.text s) ⟨Path.rootFromTop (Path.slashes s.toList = 2), Path.parts s.toList⟩
  | check {c : Check} (h : ¬IsUri c.path.toList) :
    Leads (.check c) ⟨Path.rootFromTop (Path.slashes c.path.toList = 2), Path.parts c.path.toList⟩
  | path {p : Path} (h : p.IsNormal) :
    Leads (.path p) ⟨Path.rootFromTop (p.root = .double), p.components⟩

/-- What a reference leads to is a normal path seen from the root directory, and has its URI. -/
theorem Leads.exists_path {r : Reference} {q : Path} (h : Leads r q) :
    ∃ p : Path, p.IsNormal ∧ Path.top.join p = q ∧
      uri Path.top r = String.ofList (pathUri Path.top p) := by
  cases h with
  | @text s h =>
    exact ⟨.ofText s.toList, Path.isNormal_ofText _, Path.top_join_ofText _,
      textUri_of_not_isUri _ h⟩
  | @check c h =>
    exact ⟨.ofText c.path.toList, Path.isNormal_ofText _, Path.top_join_ofText _,
      textUri_of_not_isUri _ h⟩
  | @path p h => exact ⟨p, h, Path.top_join p, rfl⟩

/-- From the root directory, references that are no URIs have the same URI if and only if they lead
to the same path. The path can be read back from it, and the URI of a URI is itself. -/
theorem uri_identifies {r₁ r₂ : Reference} {q₁ q₂ : Path} (h₁ : Leads r₁ q₁) (h₂ : Leads r₂ q₂) :
    (uri .top r₁ = uri .top r₂ ↔ q₁ = q₂) ∧
      (∃ code, (uri .top r₁).toList = "file://".toList ++ code ∧
        percentDecode? code = some q₁.spelling) ∧
      ∀ cwd r, uri cwd (.text (uri cwd r)) = uri cwd r := by
  obtain ⟨p₁, hp₁, rfl, huri₁⟩ := h₁.exists_path
  obtain ⟨p₂, hp₂, rfl, huri₂⟩ := h₂.exists_path
  have htop : Path.top.IsNormal := by decide
  have habsolute : (Path.top.join p₁).isAbsolute = true := Path.isAbsolute_join rfl p₁
  refine ⟨?_, ?_, ?_⟩
  · rw [huri₁, huri₂, String.ofList_inj]
    exact pathUri_inj (htop.join hp₁) (htop.join hp₂)
  · refine ⟨percentEncode (Path.top.join p₁).text, ?_, ?_⟩
    · rw [huri₁, String.toList_ofList]
      rfl
    · rw [percentDecode?_percentEncode, Path.text_of_absolute habsolute]
  · exact fun cwd r => textUri_of_isUri cwd (isUri_uri cwd r)

/-- A relative text, an analyzed file and a path object: the first two lead to one file, and the
path object has another root than a text with two slashes at the front. -/
theorem uri_identifies_sources :
    uri .top (.text "src//./é b") = uri .top (.check ⟨"///src/é b/", .null⟩) ∧
      (uri .top (.text "src//./é b")).toList = "file://".toList ++ "/src/%C3%A9%20b".toList ∧
      percentDecode? "/src/%C3%A9%20b".toList = some "/src/é b".toList ∧
      uri .top (.text "//src/..") ≠
        uri .top (.path ⟨.single, ["src".toList, "..".toList]⟩) ∧
      uri .top (.text (uri .top (.text "src//./é b"))) = uri .top (.text "src//./é b") := by
  have hrelative := Leads.text (s := "src//./é b") (by decide +kernel)
  have hcheck := Leads.check (c := ⟨"///src/é b/", .null⟩) (by decide +kernel)
  have hdouble := Leads.text (s := "//src/..") (by decide +kernel)
  have hpath := Leads.path (p := ⟨.single, ["src".toList, "..".toList]⟩) (by decide)
  obtain ⟨hsame, ⟨code, hcode, hdecode⟩, hkept⟩ := uri_identifies hrelative hcheck
  have hother := (uri_identifies hdouble hpath).1
  have hshown : (uri .top (.text "src//./é b")).toList =
      "file://".toList ++ "/src/%C3%A9%20b".toList := by decide +kernel
  have hcoded : code = "/src/%C3%A9%20b".toList :=
    List.append_cancel_left (hcode.symm.trans hshown)
  refine ⟨hsame.mpr (by decide +kernel), hshown, ?_, ?_, hkept _ _⟩
  · rw [← hcoded, hdecode]
    decide +kernel
  · rw [Ne, hother]
    decide +kernel

end GoToSymbol.File
