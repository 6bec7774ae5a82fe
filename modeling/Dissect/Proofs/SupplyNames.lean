/-
# The supply of temporary names

The names of disposable files carry a number, in eight digits, between a fixed start and the suffix.
As long as the supply lasts they differ, whatever their suffixes are (`named_inj`).

A suffix may hold slashes.  Then the numbered name is one of a directory, and a directory that bears
it already is taken as it is.  If nothing bears these names (`NamesFree` asks it for the suffixes in
use and the numbers that are drawn), no file can be made at such a path (`unslashed_of_create`), so
every new file has its number in its own name (`place_spec`).
-/
import Dissect.Proofs.FileCreation

namespace Dissect

open Files (Disk Location Node Tree)

namespace Disposable

/-! ## 1. Numbers and names -/

/-- How many names there are before they repeat. -/
def supply : Nat := nameAlphabet.length ^ 8

theorem length_nameDigits (width n : Nat) : (nameDigits width n).length = width := by
  induction width generalizing n with
  | zero => rfl
  | succ width ih => rw [nameDigits, List.length_append, ih, List.length_singleton]

theorem nameDigits_inj {width n m : Nat} (hn : n < nameAlphabet.length ^ width)
    (hm : m < nameAlphabet.length ^ width) (h : nameDigits width n = nameDigits width m) :
    n = m := by
  have hsize : nameAlphabet.length = 37 := by decide
  have hdigit : ∀ k l : Fin 37,
      nameAlphabet[k.val]?.getD '_' = nameAlphabet[l.val]?.getD '_' → k = l := by decide +kernel
  rw [hsize] at hn hm
  induction width generalizing n m with
  | zero => omega
  | succ width ih =>
    obtain ⟨hfront, hlast⟩ := List.append_inj' h rfl
    rw [hsize] at hfront hlast
    have hquotient := ih (by omega) (by omega) hfront
    have hrest := hdigit ⟨n % 37, Nat.mod_lt _ (by decide)⟩ ⟨m % 37, Nat.mod_lt _ (by decide)⟩
      (List.cons.inj hlast).1
    have hmod : n % 37 = m % 37 := congrArg Fin.val hrest
    omega

/-- **Names differ** as long as the supply lasts. -/
theorem named_inj {suffix other : String} {n m : Nat} (hn : n < supply) (hm : m < supply)
    (h : named suffix n = named other m) : n = m := by
  have hchars := congrArg String.toList h
  rw [toList_named, toList_named, List.append_assoc, List.append_assoc] at hchars
  have hdigits := List.append_cancel_left (List.cons.inj hchars).2
  have hlength : (nameDigits 8 n).length = (nameDigits 8 m).length := by
    rw [length_nameDigits, length_nameDigits]
  exact nameDigits_inj hn hm (List.append_inj hdigits hlength).1

/-- What the numbered name of a path ends with if the suffix has slashes: what stands before the first
of them. -/
def innerSuffix? (suffix : String) : Option String :=
  if '/' ∈ suffix.toList then some (String.ofList (suffix.toList.takeWhile (· ≠ '/'))) else none

theorem innerSuffix?_eq {before after : List Char} (hbefore : '/' ∉ before) :
    innerSuffix? (String.ofList (before ++ '/' :: after)) = some (String.ofList before) := by
  have hall : ∀ c ∈ before, decide (c ≠ '/') = true := fun c hc =>
    decide_eq_true fun heq => hbefore (heq ▸ hc)
  unfold innerSuffix?
  rw [String.toList_ofList, if_pos (by simp), List.takeWhile_append_of_pos hall]
  simp

/-- Nothing on the tree bears a name with one of the endings and a number from the one bound on and
below the other. -/
def NamesFree (t : Tree) (endings : List String) (n last : Nat) : Prop :=
  ∀ l, (t.get? l).isSome = true → ∀ name ∈ l, ∀ ending ∈ endings, ∀ k, n ≤ k → k < last →
    name ≠ named ending k

variable {t t' : Tree} {endings : List String} {n m k last : Nat} {suffix ending : String}

theorem NamesFree.vacant (h : NamesFree t endings n last) (hending : ending ∈ endings) (hn : n ≤ k)
    (hk : k < last) (base : Location) : t.get? (base ++ [named ending k]) = none := by
  cases hnode : t.get? (base ++ [named ending k]) with
  | none => rfl
  | some node =>
    exact absurd rfl
      (h _ (by rw [hnode]; rfl) (named ending k) (by simp) ending hending k hn hk)

/-- The place bears one of the first names of the supply. -/
def Spent (n : Nat) (l : Location) : Prop :=
  ∃ base suffix k, k < n ∧ l = base ++ [named suffix k]

theorem Spent.mono {l : Location} (hn : n ≤ m) (h : Spent n l) : Spent m l := by
  obtain ⟨base, suffix, k, hk, hl⟩ := h
  exact ⟨base, suffix, k, Nat.lt_of_lt_of_le hk hn, hl⟩

/-- A place with a new name is not spent. -/
theorem not_spent (hn : n ≤ k) (hk : k < supply) (base : Location) :
    ¬ Spent n (base ++ [named suffix k]) := by
  rintro ⟨other, suffix', m, hm, heq⟩
  have hlength : [named suffix k].length = [named suffix' m].length := by
    rw [List.length_singleton, List.length_singleton]
  have hname := List.singleton_inj.mp (List.append_inj_right' heq hlength)
  have := named_inj hk (by omega) hname
  omega

/-! ## 2. Suffixes with slashes -/

end Disposable

namespace Files

variable {t : Tree} {loc reached : Location}

/-- The names between the slashes of a text. -/
def namesOf (s : String) : List String := (Text.splitAt s '/').filter (· != "")

theorem namesOf_slash (front rest : String) :
    namesOf (front ++ "/" ++ rest) = namesOf front ++ namesOf rest := by
  unfold namesOf
  rw [Text.splitAt_slash, List.filter_append]

theorem namesOf_plain {name : String} (hn : Path.IsPlain name) : namesOf name = [name] := by
  unfold namesOf Text.splitAt
  rw [Text.splitChars_of_not_mem hn.2.2]
  simp [hn.1]

theorem rawNames_of_end {path : String} (hend : path.toList.getLast? ≠ some '/') :
    rawNames path = namesOf path := by
  unfold rawNames
  rw [if_neg (fun h => hend (Disk.endsWith_slash_iff.mp h))]
  rfl

/-- A text that does not end with a slash has an end after its slashes. -/
theorem end_of_slash {front rest : String}
    (hend : (front ++ "/" ++ rest).toList.getLast? ≠ some '/') :
    rest ≠ "" ∧ rest.toList.getLast? ≠ some '/' := by
  have hne : rest ≠ "" := by
    rintro rfl
    simp at hend
  rw [String.toList_append, List.getLast?_append_of_ne_nil _ (Path.toList_ne_nil hne)] at hend
  exact ⟨hne, hend⟩

/-- Nothing is reached through a name that nothing bears. -/
theorem not_follow_vacant {links : Nat} {front more : List String} {name : String}
    (hmore : more ≠ []) (hdot : name ≠ ".") (hup : name ≠ "..")
    (hvacant : ∀ base, t.get? (base ++ [name]) = none) :
    follow t false links loc (front ++ name :: more) ≠ .ok reached := by
  intro h
  obtain ⟨base, left, hf⟩ : ∃ base left, follow t false left base (name :: more) = .ok reached := by
    by_cases hfront : front = []
    · subst hfront
      exact ⟨loc, links, h⟩
    · obtain ⟨base, left, -, hf⟩ := follow_append (List.cons_ne_nil name more) h
      exact ⟨base, left, hf⟩
  rcases passed_of_follow hf hdot hup hmore with hdir | ⟨target, hn⟩
  · rw [hvacant base] at hdir
    cases hdir
  · rw [hvacant base] at hn
    cases hn

end Files

namespace Disposable

open Files (namesOf namesOf_slash namesOf_plain rawNames_of_end end_of_slash not_follow_vacant)

variable {t : Tree} {d d' disk : Disk} {host : Host} {endings : List String}
  {n k next last : Nat} {suffix path : String} {directory : Option Path}

/-- What stands before the name in the path of a disposable file ends with a slash. -/
theorem candidate_slash {directory : Path} (habs : directory.isAbsolute = true) (suffix : String)
    (n : Nat) : ∃ front, candidate directory suffix n = front ++ "/" ++ named suffix n := by
  unfold candidate named
  by_cases hne : directory.parts = []
  · obtain ⟨anchor, parts⟩ := directory
    simp only at hne
    subst hne
    cases anchor with
    | relative => cases habs
    | root => exact ⟨"", by simp [Path.text, Anchor.text, Text.join, String.append_assoc]⟩
    | doubleRoot =>
      have hslashes : "//" = "/" ++ "/" := by decide
      exact ⟨"/", by simp [Path.text, Anchor.text, Text.join, String.append_assoc, hslashes]⟩
  · exact ⟨directory.text, by simp [hne, String.append_assoc]⟩

/-- **A suffix with which a file is made has no slashes**, as long as nothing bears the name before
the first of them. -/
theorem unslashed_of_create {directory : Path} (habs : directory.isAbsolute = true)
    (hfree : NamesFree d.tree endings n last)
    (hinner : ∀ ending ∈ innerSuffix? suffix, ending ∈ endings) (hn : n ≤ k) (hk : k < last)
    (h : d.create (candidate directory suffix k) = .ok d') : '/' ∉ suffix.toList := by
  intro hslash
  obtain ⟨before, after, hsuffix, hbefore⟩ := List.eq_append_cons_of_mem hslash
  have hplain : Path.IsPlain (named (String.ofList before) k) :=
    named_plain (by rw [String.toList_ofList]; exact hbefore) k
  have hending : String.ofList before ∈ endings := hinner _ (by
    rw [← String.ofList_toList (s := suffix), hsuffix]
    exact innerSuffix?_eq hbefore)
  obtain ⟨front, hfront⟩ := candidate_slash habs suffix k
  have hpath : candidate directory suffix k =
      front ++ "/" ++ named (String.ofList before) k ++ "/" ++ String.ofList after := by
    rw [hfront, ← String.toList_inj]
    simp [named, hsuffix]
  have hend := Disk.not_slash_of_create h
  rw [hpath] at hend
  have hafter := end_of_slash hend
  obtain ⟨loc, hl, -⟩ := Disk.create_ok (Disk.not_slash_of_create h) h
  obtain ⟨-, -, hf⟩ := Disk.locate_ok hl
  rw [hpath, rawNames_of_end hend, namesOf_slash, namesOf_slash, namesOf_plain hplain,
    List.append_assoc, List.singleton_append] at hf
  refine not_follow_vacant ?_ hplain.2.1 (named_ne_up _ _) (hfree.vacant hending hn hk) hf
  rw [← rawNames_of_end hafter.2]
  exact Disk.rawNames_ne_nil hafter.1 hafter.2

/-- **Where a new file is made**: under a new name in a directory that is there. -/
theorem place_spec (hd : host.disk.WellFormed) (hp : ∀ path, directory = some path → path.Proper)
    (hfree : NamesFree host.disk.tree endings host.namesTaken last)
    (hinner : ∀ ending ∈ innerSuffix? suffix, ending ∈ endings) (hnext : next ≤ last)
    (h : place host directory suffix = .ok (disk, path, next)) :
    ∃ base k, host.namesTaken ≤ k ∧ next = k + 1 ∧ '/' ∉ suffix.toList ∧
      Path.ofText path = (directoryFor host directory).child (named suffix k) ∧
      path = (Path.ofText path).text ∧
      host.disk.locate false path = .ok (base ++ [named suffix k]) ∧
      (host.disk.tree.get? base).any Node.isDirectory = true ∧
      host.disk.tree.get? (base ++ [named suffix k]) = none := by
  obtain ⟨k, hk, rfl, hcandidate, hcreate⟩ := claim_ok h
  have habs : (directoryFor host directory).isAbsolute = true := Disk.isAbsolute_absolute _ _
  have hproper := directoryFor_proper hd hp
  rw [hcandidate] at hcreate
  have hslash := unslashed_of_create habs hfree hinner hk hnext hcreate
  have hplain := named_plain hslash k
  have hpath := hcandidate.trans (candidate_eq habs hslash k)
  have hparts : ((directoryFor host directory).child (named suffix k)).parts ≠ [] := by
    rw [Path.child_plain _ hplain]
    simp
  have hof : Path.ofText path = (directoryFor host directory).child (named suffix k) := by
    rw [hpath, Path.ofText_text (hproper.child hplain) hparts]
  obtain ⟨loc, hl, hv, -⟩ := Disk.create_ok (Disk.not_slash_of_create hcreate) hcreate
  rw [← hcandidate, hpath] at hl
  obtain ⟨base, -, rfl, hdir⟩ := Disk.locate_child hproper hplain (named_ne_up suffix k) hl
    (fun hfollow => by cases hfollow)
  refine ⟨base, k, hk, rfl, hslash, hof, by rw [hof, ← hpath], ?_, hdir, hv⟩
  rw [hpath]
  exact hl

end Disposable

end Dissect
