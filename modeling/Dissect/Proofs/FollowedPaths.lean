/-
# Paths that lead somewhere

Replacing the links of a path and following the path are different things: one is done name by name
on texts and goes on where nothing is, the other is done by the system and takes a limited number of
links.  Where the system can follow an absolute path, both come to the same place
(`resolve_of_locate`).

The system's walk takes a number of links, and taking a link again from within itself would take as
many links once more.  So no link is met while it is being replaced: each link that is being
replaced takes more links than are left to take.
-/
import Dissect.Proofs.LinkFreePaths

namespace Dissect.Files

/-! ## 1. Walks -/

/-- The name may be asked for in the directory at the location. -/
structure Askable (t : Tree) (loc : Location) (name : String) : Prop where
  directory : (t.get? loc).any Node.isDirectory = true
  plain : Path.IsPlain name
  down : name ≠ ".."
  fits : ¬ maxNameBytes < name.utf8ByteSize

/-- The walk from a location along names, none of them a dot, takes a number of links and comes to
another location. -/
inductive Walks (d : Disk) : Nat → Location → List String → Location → Prop
  | here (loc : Location) : Walks d 0 loc [] loc
  | up {n loc rest dest} : Walks d n loc.dropLast rest dest → Walks d n loc (".." :: rest) dest
  | down {n loc name rest dest} : Askable d.tree loc name →
      (∀ target, d.tree.get? (loc ++ [name]) ≠ some (.link target)) →
      Walks d n (loc ++ [name]) rest dest → Walks d n loc (name :: rest) dest
  | link {n loc name target rest dest} : Askable d.tree loc name →
      d.tree.get? (loc ++ [name]) = some (.link target) →
      Walks d n (rawStart loc target) (Path.partsOf target ++ rest) dest →
      Walks d (n + 1) loc (name :: rest) dest

variable {d : Disk} {loc dest mid : Location} {names rest : List String} {name : String} {n : Nat}

namespace Walks

/-- The location reached and the number of links are determined. -/
theorem unique {m : Nat} {dest' : Location} (h : Walks d n loc names dest) :
    Walks d m loc names dest' → n = m ∧ dest = dest' := by
  induction h generalizing m dest' with
  | here loc =>
    rintro ⟨⟩
    exact ⟨rfl, rfl⟩
  | up _ ih =>
    intro h'
    cases h' with
    | up h' => exact ih h'
    | down hask => exact absurd rfl hask.down
    | link hask => exact absurd rfl hask.down
  | down hask hno _ ih =>
    intro h'
    cases h' with
    | up => exact absurd rfl hask.down
    | down _ _ h' => exact ih h'
    | link _ hlink => exact absurd hlink (hno _)
  | link hask hlink _ ih =>
    intro h'
    cases h' with
    | up => exact absurd rfl hask.down
    | down _ hno => exact absurd hlink (hno _)
    | link _ hlink' h' =>
      obtain rfl := Node.link.inj (Option.some.inj (hlink.symm.trans hlink'))
      obtain ⟨rfl, rfl⟩ := ih h'
      exact ⟨rfl, rfl⟩

/-- A walk along names and more names comes to a location on the way. -/
theorem cut {more : List String} (h : Walks d n loc (names ++ more) dest) :
    ∃ first last mid, n = first + last ∧ Walks d first loc names mid ∧
      Walks d last mid more dest := by
  generalize hall : names ++ more = all at h
  induction h generalizing names with
  | here loc =>
    obtain ⟨rfl, rfl⟩ := List.append_eq_nil_iff.mp hall
    exact ⟨0, 0, loc, rfl, .here loc, .here loc⟩
  | @up n loc rest dest hw ih =>
    cases names with
    | nil =>
      obtain rfl : more = ".." :: rest := hall
      exact ⟨0, n, loc, (Nat.zero_add n).symm, .here loc, .up hw⟩
    | cons first others =>
      obtain ⟨rfl, rfl⟩ := List.cons.inj hall
      obtain ⟨a, b, mid, rfl, hfirst, hlast⟩ := ih rfl
      exact ⟨a, b, mid, rfl, .up hfirst, hlast⟩
  | @down n loc name rest dest hask hno hw ih =>
    cases names with
    | nil =>
      obtain rfl : more = name :: rest := hall
      exact ⟨0, n, loc, (Nat.zero_add n).symm, .here loc, .down hask hno hw⟩
    | cons first others =>
      obtain ⟨rfl, rfl⟩ := List.cons.inj hall
      obtain ⟨a, b, mid, rfl, hfirst, hlast⟩ := ih rfl
      exact ⟨a, b, mid, rfl, .down hask hno hfirst, hlast⟩
  | @link n loc name target rest dest hask hlink hw ih =>
    cases names with
    | nil =>
      obtain rfl : more = name :: rest := hall
      exact ⟨0, n + 1, loc, (Nat.zero_add _).symm, .here loc, .link hask hlink hw⟩
    | cons first others =>
      obtain ⟨rfl, rfl⟩ := List.cons.inj hall
      obtain ⟨a, b, mid, rfl, hfirst, hlast⟩ := ih (List.append_assoc _ _ _)
      exact ⟨a + 1, b, mid, by omega, .link hask hlink hfirst, hlast⟩

end Walks

/-! ## 2. What is followed is walked -/

/-- The names without dots. -/
def undotted (names : List String) : List String := names.filter (· != ".")

/-- The names that a raw text leads through are not empty and have no slashes. -/
theorem rawNames_named (s : String) : ∀ name ∈ rawNames s, name ≠ "" ∧ '/' ∉ name.toList := by
  have hpieces : ∀ name ∈ (Text.splitAt s '/').filter (· != ""), name ≠ "" ∧ '/' ∉ name.toList := by
    intro name hm
    obtain ⟨hpiece, hne⟩ := List.mem_filter.mp hm
    obtain ⟨piece, hp, rfl⟩ := List.mem_map.mp hpiece
    rw [String.toList_ofList]
    exact ⟨bne_iff_ne.mp hne, Text.not_mem_of_mem_splitChars hp⟩
  unfold rawNames
  split
  · intro name hm
    rcases List.mem_append.mp hm with hm | hm
    · exact hpieces name hm
    · rw [List.mem_singleton.mp hm]
      decide
  · exact hpieces

theorem undotted_rawNames (s : String) : undotted (rawNames s) = Path.partsOf s := by
  have hpieces : undotted ((Text.splitAt s '/').filter (· != "")) = Path.partsOf s := by
    unfold undotted Path.partsOf
    rw [List.filter_filter]
    exact List.filter_congr fun name _ => Bool.and_comm _ _
  unfold rawNames
  split
  · rw [undotted, List.filter_append]
    exact (List.append_nil _).trans hpieces
  · exact hpieces

/-- The names are walked along from the location to where a walk of the system stops; where that is
a link, by going on from the link. -/
structure Stops (d : Disk) (loc : Location) (names : List String) (stop : Stop) : Prop where
  done : ∀ dest, stop = .done dest → Walks d 0 loc names dest
  link : ∀ directory target rest, stop = .link directory target rest →
    (∀ name ∈ rest, name ≠ "" ∧ '/' ∉ name.toList) ∧
    ∀ n dest, Walks d n (rawStart directory target) (Path.partsOf target ++ undotted rest) dest →
      Walks d (n + 1) loc names dest

/-- A walk may begin with a step that is no link. -/
theorem Stops.before {other : Location} {more : List String} {stop : Stop}
    (h : Stops d other more stop)
    (hstep : ∀ n dest, Walks d n other more dest → Walks d n loc names dest) :
    Stops d loc names stop where
  done := fun dest he => hstep 0 dest (h.done dest he)
  link := fun directory target rest he =>
    ⟨(h.link directory target rest he).1, fun n dest hw =>
      hstep (n + 1) dest ((h.link directory target rest he).2 n dest hw)⟩

/-- Where names are followed without a link they are walked along, and a link on the way is taken
by the walk. -/
theorem Descends.stops {stop : Stop} (h : Descends d.tree true loc names stop)
    (hnamed : ∀ name ∈ names, name ≠ "" ∧ '/' ∉ name.toList) : Stops d loc (undotted names) stop := by
  -- a name that is looked up is asked for, and is no dot
  have hasked : ∀ {loc name}, LooksUp d.tree loc name → (name ≠ "" ∧ '/' ∉ name.toList) →
      Askable d.tree loc name ∧ ∀ rest, undotted (name :: rest) = name :: undotted rest :=
    fun hlook hname => ⟨⟨hlook.directory, ⟨hname.1, hlook.dot, hname.2⟩, hlook.up, hlook.fits⟩,
      fun rest => by simp [undotted, hlook.dot]⟩
  induction h with
  | nil loc => exact ⟨(fun dest he => by cases he; exact .here loc), fun _ _ _ he => by cases he⟩
  | @pass loc next name rest stop hpass _ ih =>
    obtain ⟨hname, hrest⟩ := List.forall_mem_cons.mp hnamed
    cases hpass with
    | dot => exact ih hrest
    | up => exact (ih hrest).before fun _ _ hw => .up hw
    | down hlook hdir =>
      obtain ⟨hask, hkeep⟩ := hasked hlook hname
      rw [hkeep]
      refine (ih hrest).before fun _ _ hw => .down hask (fun target hn => ?_) hw
      rw [hn] at hdir
      cases hdir
  | @last loc name hlook hno =>
    obtain ⟨hask, hkeep⟩ := hasked hlook (hnamed name List.mem_cons_self)
    rw [hkeep]
    exact ⟨(fun dest he => by cases he; exact .down hask (hno rfl) (.here _)),
      fun _ _ _ he => by cases he⟩
  | @link loc name target rest hlook hn _ =>
    obtain ⟨hname, hrest⟩ := List.forall_mem_cons.mp hnamed
    obtain ⟨hask, hkeep⟩ := hasked hlook hname
    rw [hkeep]
    refine ⟨(fun _ he => by cases he), fun directory target' more he => ?_⟩
    cases he
    exact ⟨hrest, fun n dest hw => .link hask hn hw⟩

/-- **What the system can follow is walked**, through no more links than it takes. -/
theorem walks_of_follow {links : Nat} (hnamed : ∀ name ∈ names, name ≠ "" ∧ '/' ∉ name.toList)
    (hf : follow d.tree true links loc names = .ok dest) :
    ∃ n ≤ links, Walks d n loc (undotted names) dest := by
  induction follows_iff.mpr hf with
  | done hd => exact ⟨0, Nat.zero_le _, (hd.stops hnamed).done _ rfl⟩
  | @link links loc names directory target rest dest hd hon ih =>
    obtain ⟨hrest, hwalk⟩ := (hd.stops hnamed).link directory target rest rfl
    obtain ⟨n, hn, hw⟩ :=
      ih (List.forall_mem_append.mpr ⟨rawNames_named target, hrest⟩) hon.follow
    refine ⟨n + 1, Nat.succ_le_succ hn, hwalk n dest ?_⟩
    rw [← undotted_rawNames, undotted, undotted, ← List.filter_append]
    exact hw

/-! ## 3. Links on a walk -/

/-- A location that its path from the root leads to, if the path is not too long. -/
structure Standing (d : Disk) (loc : Location) : Prop where
  free : d.tree.LinkFree loc
  plain : ∀ name ∈ loc, Path.IsPlain name ∧ name ≠ ".."
  fits : ∀ name ∈ loc, ¬ maxNameBytes < name.utf8ByteSize

theorem Standing.root (d : Disk) : Standing d [] where
  free := by
    intro front target hf
    rw [List.prefix_nil.mp hf]
    simp [Tree.get?]
  plain := fun _ hm => by cases hm
  fits := fun _ hm => by cases hm

theorem Standing.up (h : Standing d loc) : Standing d loc.dropLast where
  free := h.free.before (List.dropLast_prefix loc)
  plain := fun name hm => h.plain name ((List.dropLast_sublist loc).mem hm)
  fits := fun name hm => h.fits name ((List.dropLast_sublist loc).mem hm)

theorem Standing.down (h : Standing d loc) (hask : Askable d.tree loc name)
    (hno : ∀ target, d.tree.get? (loc ++ [name]) ≠ some (.link target)) :
    Standing d (loc ++ [name]) where
  free := h.free.concat hno
  plain := List.forall_mem_append.mpr
    ⟨h.plain, List.forall_mem_singleton.mpr ⟨hask.plain, hask.down⟩⟩
  fits := List.forall_mem_append.mpr ⟨h.fits, List.forall_mem_singleton.mpr hask.fits⟩

theorem Standing.rawStart (h : Standing d loc) (target : String) :
    Standing d (rawStart loc target) := by
  unfold Dissect.Files.rawStart
  split
  · exact Standing.root d
  · exact h

/-- The system comes to a directory along its names. -/
theorem descend_to_directory {t : Tree} {followLast : Bool} (hw : t.WellFormed)
    {more : List String} : ∀ (names : List String) (base : Location),
      (t.get? (base ++ names)).any Node.isDirectory = true →
      (∀ name ∈ names, ¬ maxNameBytes < name.utf8ByteSize) →
        descend t followLast base (names ++ more) = descend t followLast (base ++ names) more
  | [], base, _, _ => by rw [List.append_nil, List.nil_append]
  | name :: rest, base, hdir, hfits => by
    obtain ⟨hplain, hup⟩ := hw.plain_before hdir name (by simp)
    have hbase := hw.directory_before hdir
    rw [List.append_cons] at hdir ⊢
    have hlook : LooksUp t base name := ⟨hbase, hplain.2.1, hup, hfits name List.mem_cons_self⟩
    rw [List.cons_append, (Passes.down hlook (hw.directory_before hdir)).descend]
    exact descend_to_directory hw rest _ hdir fun n hm => hfits n (List.mem_cons_of_mem _ hm)

/-- The links of the disk have paths that the system takes. -/
def Disk.LinksFit (d : Disk) : Prop :=
  ∀ loc target, d.tree.get? loc = some (.link target) →
    (Path.text ⟨.root, loc⟩).utf8ByteSize < maxPathBytes

variable (hw : d.tree.WellFormed) (hlinks : d.LinksFit)

include hw hlinks in
/-- A link that is met on a walk is found at its path. -/
theorem linkAt?_of_link (hs : Standing d loc) (hask : Askable d.tree loc name) {target : String}
    (hn : d.tree.get? (loc ++ [name]) = some (.link target)) :
    linkAt? d ⟨.root, loc ++ [name]⟩ = some target := by
  have hproper : Path.Proper ⟨.root, loc ++ [name]⟩ := List.forall_mem_append.mpr
    ⟨fun part hm => (hs.plain part hm).1, List.forall_mem_singleton.mpr hask.plain⟩
  have hwalk : descend d.tree false [] (loc ++ [name]) = .ok (.done (loc ++ [name])) := by
    rw [descend_to_directory hw loc [] hask.directory hs.fits, List.nil_append]
    exact descends_iff.mp (.last ⟨hask.directory, hask.plain.2.1, hask.down, hask.fits⟩ nofun)
  have hlocate : d.locate false (Path.text ⟨.root, loc ++ [name]⟩) = .ok (loc ++ [name]) := by
    refine Disk.locate_of_follow (Disk.text_ne_empty hproper) (hlinks _ _ hn) ?_
    rw [Disk.follow_text hproper]
    exact (Follows.done (.of_descend hwalk)).follow
  simp [linkAt?, Disk.lstat, Disk.find_of_locate hlocate hn, Except.map]

/-! ## 4. Replacing links along a walk -/

/-- The paths that links are known to lead to are those that walks lead to. -/
def Replaced.Sound (d : Disk) (replaced : Replaced) : Prop :=
  ∀ key known, replaced.lookup key = some (some known) →
    ∃ loc name n dest, key = ⟨.root, loc ++ [name]⟩ ∧ Walks d n loc [name] dest ∧
      Standing d dest ∧ known = ⟨.root, dest⟩

/-- The links that are being replaced take more links than the given number. -/
def Replaced.Above (d : Disk) (n : Nat) (replaced : Replaced) : Prop :=
  ∀ key, replaced.lookup key = some none →
    ∃ loc name k dest, key = ⟨.root, loc ++ [name]⟩ ∧ Walks d k loc [name] dest ∧ n < k

theorem Replaced.Above.mono {replaced : Replaced} {m : Nat} (h : replaced.Above d n) (hm : m ≤ n) :
    replaced.Above d m := fun key hkey => by
  obtain ⟨loc, name, k, dest, he, hwalk, hk⟩ := h key hkey
  exact ⟨loc, name, k, dest, he, hwalk, Nat.lt_of_le_of_lt hm hk⟩

/-- Two walks along the link of one path are the same. -/
theorem Walks.unique_of_key {m : Nat} {loc' dest' : Location} {name' : String}
    (h : Walks d n loc [name] dest) (h' : Walks d m loc' [name'] dest')
    (hkey : (⟨.root, loc ++ [name]⟩ : Path) = ⟨.root, loc' ++ [name']⟩) : n = m ∧ dest = dest' := by
  obtain ⟨rfl, hname⟩ := List.append_inj' (congrArg Path.parts hkey) rfl
  exact h.unique (hname ▸ h')

/-- A link that is replaced leads to where the walk along it leads. -/
theorem Replaced.Sound.known {replaced : Replaced} (h : replaced.Sound d) {known : Path}
    (hwalk : Walks d n loc [name] dest)
    (hknown : replaced.lookup ⟨.root, loc ++ [name]⟩ = some (some known)) :
    known = ⟨.root, dest⟩ ∧ Standing d dest := by
  obtain ⟨loc', name', m, dest', hkey, hwalk', hstands, rfl⟩ := h _ _ hknown
  obtain ⟨-, rfl⟩ := hwalk.unique_of_key hwalk' hkey
  exact ⟨rfl, hstands⟩

/-- A link that takes no more links than the number is not being replaced. -/
theorem Replaced.Above.not_busy {replaced : Replaced} (h : replaced.Above d n) {m : Nat}
    (hwalk : Walks d m loc [name] dest) (hm : m ≤ n) :
    replaced.lookup ⟨.root, loc ++ [name]⟩ ≠ some none := by
  intro hbusy
  obtain ⟨loc', name', k, dest', hkey, hwalk', hk⟩ := h _ hbusy
  obtain ⟨rfl, -⟩ := hwalk.unique_of_key hwalk' hkey
  exact Nat.not_lt.mpr hm hk

/-- What holds of a link and of those replaced before holds of all. -/
theorem Replaced.Sound.cons {replaced : Replaced} (h : replaced.Sound d) {key : Path}
    {known? : Option Path}
    (hk : ∀ known, known? = some known → ∃ loc name n dest, key = ⟨.root, loc ++ [name]⟩ ∧
      Walks d n loc [name] dest ∧ Standing d dest ∧ known = ⟨.root, dest⟩) :
    Replaced.Sound d ((key, known?) :: replaced) := by
  intro other known hlookup
  rcases Assoc.lookup_cons_some hlookup with ⟨rfl, hknown⟩ | hlookup
  · exact hk known hknown
  · exact h other known hlookup

theorem Replaced.Above.cons {replaced : Replaced} (h : replaced.Above d n) {key : Path}
    (hk : ∃ loc name k dest, key = ⟨.root, loc ++ [name]⟩ ∧ Walks d k loc [name] dest ∧ n < k) :
    Replaced.Above d n ((key, none) :: replaced) := by
  intro other hlookup
  rcases Assoc.lookup_cons_some hlookup with ⟨rfl, -⟩ | hlookup
  · exact hk
  · exact h other hlookup

/-- Once a link is replaced, the links that are being replaced are those from before. -/
theorem busy_of_replaced {before replaced : Replaced} {next known key : Path}
    (h : ∀ key, replaced.lookup key = some none →
      List.lookup key ((next, none) :: before : Replaced) = some none)
    (hkey : List.lookup key ((next, some known) :: replaced : Replaced) = some none) :
    before.lookup key = some none := by
  rw [List.lookup_cons] at hkey
  split at hkey
  · cases hkey
  · rename_i hne
    have hbefore := h key hkey
    rw [List.lookup_cons, hne] at hbefore
    exact hbefore

/-- A replacement that began with some links replaced has come to a location without a loop. -/
structure Arrives (d : Disk) (before : Replaced) (dest : Location) (progress : Progress) :
    Prop where
  loopFree : progress.loopFree = true
  path : progress.path = ⟨.root, dest⟩
  standing : Standing d dest
  sound : progress.replaced.Sound d
  busy : ∀ key, progress.replaced.lookup key = some none → before.lookup key = some none

/-- The names that a walk takes: none that is empty, and no dot. -/
def walked (names : List String) : List String :=
  names.filter fun name => name != "" && name != "."

theorem walked_skip (h : (name = "" || name = ".") = true) :
    walked (name :: rest) = walked rest := by
  refine List.filter_cons_of_neg ?_
  simpa [-not_and, Classical.not_and_iff_not_or_not] using h

theorem walked_keep (h : ¬ (name = "" || name = ".") = true) :
    walked (name :: rest) = name :: walked rest := by
  refine List.filter_cons_of_pos ?_
  simpa using h

/-- Names that are walked along with so many links are replaced along to where the walk leads. -/
def ArrivesAfter (d : Disk) (n : Nat) : Prop :=
  ∀ (names : List String) (depth : Nat) (replaced : Replaced) (loc dest : Location),
    n ≤ depth → replaced.Sound d → replaced.Above d n → Standing d loc →
      Walks d n loc (walked names) dest →
        Arrives d replaced dest (replaceLinks d depth replaced ⟨.root, loc⟩ names)

/-- Where the target of a link starts, and the names that its walk takes. -/
theorem targetSteps_root (loc : Location) (target : String) :
    (targetSteps ⟨.root, loc⟩ target).1 = ⟨.root, rawStart loc target⟩ ∧
      walked (targetSteps ⟨.root, loc⟩ target).2 = Path.partsOf target := by
  cases hl : target.toList with
  | nil =>
    have hsplit : Text.splitAt target '/' = [""] := by simp [Text.splitAt, hl, Text.splitChars]
    have hstart : rawStart loc target = loc := by simp [rawStart, Text.startsWith, hl]
    simp [targetSteps, walked, Path.partsOf, hsplit, hstart]
  | cons c rest =>
    obtain ⟨piece, pieces, hrest⟩ := Text.splitChars_cons '/' rest
    by_cases hc : c = '/'
    · have hsplit : Text.splitAt target '/' =
          "" :: String.ofList piece :: pieces.map String.ofList := by
        simp [Text.splitAt, hl, Text.splitChars, hc, hrest]
      have hstart : rawStart loc target = [] := by simp [rawStart, Text.startsWith, hl, hc]
      simp [targetSteps, walked, Path.partsOf, hsplit, hstart]
    · have hsplit : Text.splitAt target '/' =
          String.ofList (c :: piece) :: pieces.map String.ofList := by
        simp [Text.splitAt, hl, Text.splitChars, hc, hrest]
      have hstart : rawStart loc target = loc := by
        simp [rawStart, Text.startsWith, hl, Ne.symm hc]
      simp [targetSteps, walked, Path.partsOf, hsplit, hstart]

/-- Once a link is replaced, what is replaced after it began with the links from before. -/
theorem Arrives.linked {before : Replaced} {next known : Path} {mid : Location}
    {inner progress : Progress} (hin : Arrives d ((next, none) :: before) mid inner)
    (hafter : Arrives d ((next, some known) :: inner.replaced) dest progress) :
    Arrives d before dest progress :=
  ⟨hafter.loopFree, hafter.path, hafter.standing, hafter.sound,
    fun key hkey => busy_of_replaced hin.busy (hafter.busy key hkey)⟩

include hw hlinks in
/-- A link on a walk is replaced, with the names after it, where walks along fewer links are.  It is
known where it leads, or its target is replaced first; it is not being replaced, as it takes no more
links than are left. -/
theorem arrives_link {k : Nat} (ih : ∀ m < k + 1, ArrivesAfter d m) {depth : Nat}
    {replaced : Replaced} {target : String} (hdepth : k + 1 ≤ depth) (hr : replaced.Sound d)
    (hbusy : replaced.Above d (k + 1)) (hs : Standing d loc)
    (hdot : ¬ (name = "" || name = ".") = true) (hask : Askable d.tree loc name)
    (htarget : d.tree.get? (loc ++ [name]) = some (.link target))
    (hwalk : Walks d k (rawStart loc target) (Path.partsOf target ++ walked rest) dest) :
    Arrives d replaced dest (replaceLinks d depth replaced ⟨.root, loc⟩ (name :: rest)) := by
  -- the walk takes the link alone first, and then the names after it
  obtain ⟨first, last, mid, hsum, hfirst, hlast⟩ := hwalk.cut
  have hwhole : Walks d (first + 1) loc [name] mid := by
    refine .link hask htarget ?_
    rw [List.append_nil]
    exact hfirst
  have hon : ∀ replaced : Replaced, replaced.Sound d → replaced.Above d last → Standing d mid →
      Arrives d replaced dest (replaceLinks d depth replaced ⟨.root, mid⟩ rest) :=
    fun replaced hr hbusy hmid =>
      ih last (by omega) rest depth replaced mid dest (by omega) hr hbusy hmid hlast
  rw [replaceLinks]
  simp only [hdot, if_false, Bool.false_eq_true]
  rw [if_neg hask.down, extended_plain _ hask.plain]
  simp only [linkAt?_of_link hw hlinks hs hask htarget]
  rcases hknown : replaced.lookup ⟨.root, loc ++ [name]⟩ with _ | _ | known
  · obtain ⟨inner, rfl⟩ := Nat.exists_eq_succ_of_ne_zero (Nat.ne_of_gt (Nat.zero_lt_of_lt hdepth))
    obtain ⟨hstart, hnames⟩ := targetSteps_root loc target
    have hin := ih first (by omega) (targetSteps ⟨.root, loc⟩ target).2 inner
      ((⟨.root, loc ++ [name]⟩, none) :: replaced) (rawStart loc target) mid (by omega)
      (hr.cons fun _ he => by cases he)
      ((hbusy.mono (by omega)).cons ⟨loc, name, first + 1, mid, rfl, hwhole, by omega⟩)
      (hs.rawStart target) (hnames ▸ hfirst)
    simp only [hknown, hstart, hin.loopFree, hin.path, if_true]
    refine hin.linked (hon _ (hin.sound.cons fun known he => ?_) (fun key hkey => ?_) hin.standing)
    · cases he
      exact ⟨loc, name, first + 1, mid, rfl, hwhole, hin.standing, rfl⟩
    · exact (hbusy.mono (by omega)) key (busy_of_replaced hin.busy hkey)
  · exact absurd hknown (hbusy.not_busy hwhole (by omega))
  · obtain ⟨rfl, hmid⟩ := hr.known hwhole hknown
    simp only [hknown]
    exact hon replaced hr (hbusy.mono (by omega)) hmid

include hw hlinks in
/-- Along a walk, links are replaced where they are along walks with fewer links.  The induction is
on the names that are still to be taken. -/
theorem arrivesAfter_of_fewer (ih : ∀ m < n, ArrivesAfter d m) : ArrivesAfter d n := by
  intro names
  induction names with
  | nil =>
    intro depth replaced loc dest _ hr _ hs hwalk
    cases hwalk
    rw [replaceLinks]
    exact ⟨rfl, rfl, hs, hr, fun _ h => h⟩
  | cons name rest ihrest =>
    intro depth replaced loc dest hdepth hr hbusy hs hwalk
    by_cases hdot : (name = "" || name = ".") = true
    · rw [walked_skip hdot] at hwalk
      rw [replaceLinks, if_pos hdot]
      exact ihrest depth replaced loc dest hdepth hr hbusy hs hwalk
    rw [walked_keep hdot] at hwalk
    cases hwalk with
    | up hwalk =>
      have habove : above ⟨.root, loc⟩ = ⟨.root, loc.dropLast⟩ := by simp [above, Path.parent]
      rw [replaceLinks, if_neg hdot, if_pos rfl, habove]
      exact ihrest depth replaced _ dest hdepth hr hbusy hs.up hwalk
    | down hask hno hwalk =>
      have hnolink : linkAt? d ⟨.root, loc ++ [name]⟩ = none :=
        linkAt?_linkFree (hs.down hask hno).plain (hs.down hask hno).free
      rw [replaceLinks, if_neg hdot, if_neg hask.down, extended_plain _ hask.plain]
      simp only [hnolink]
      exact ihrest depth replaced _ dest hdepth hr hbusy (hs.down hask hno) hwalk
    | link hask htarget hwalk =>
      exact arrives_link hw hlinks ih hdepth hr hbusy hs hdot hask htarget hwalk

include hw hlinks in
/-- **Links are replaced along a walk to where it leads.** -/
theorem arrivesAfter (n : Nat) : ArrivesAfter d n :=
  Nat.strongRecOn n fun _ ih => arrivesAfter_of_fewer hw hlinks ih

/-! ## 5. Absolute paths -/

namespace Disk

include hw hlinks in
/-- **Where the system can follow an absolute path, the path resolves to where it leads**, which is
a link-free location. -/
theorem resolve_of_locate {path : Path} (hp : path.Proper) (habsolute : path.isAbsolute = true)
    (hfault : pathFault? path.text = none) (hl : d.locate true path.text = .ok dest) :
    d.Untangled path ∧ d.tree.LinkFree dest ∧ d.resolve path = .ok ⟨.root, dest⟩ := by
  have hparts : walked path.parts = path.parts :=
    List.filter_eq_self.mpr fun name hm => by simp [(hp name hm).1, (hp name hm).2.1]
  have hstart : rawStart d.cwd path.text = [] := by
    by_cases hne : path.parts = []
    · rw [rawStart_top hne, if_pos habsolute]
    · rw [rawStart_text hp hne, if_pos habsolute]
  have hnames : Path.partsOf path.text = path.parts := by
    by_cases hne : path.parts = []
    · rw [← undotted_rawNames, rawNames_top hne, hne]
      decide
    · exact congrArg Path.parts (Path.ofText_text hp hne)
  obtain ⟨-, -, hf⟩ := locate_ok hl
  rw [hstart] at hf
  obtain ⟨n, hn, hwalk⟩ := walks_of_follow (rawNames_named path.text) hf
  rw [undotted_rawNames, hnames, ← hparts] at hwalk
  have harrives : Arrives d [] dest (d.replacement path) := by
    unfold replacement
    rw [if_pos habsolute]
    exact arrivesAfter hw hlinks n path.parts maxReplacements [] [] dest
      (Nat.le_trans hn (by decide)) (fun _ _ h => by cases h) (fun _ h => by cases h)
      (Standing.root d) hwalk
  have hreal : d.realLocation path = dest := by
    show d.locationOf (d.replacement path).path = dest
    rw [harrives.path]
    exact collapse_plain harrives.standing.plain
  refine ⟨⟨harrives.loopFree, fun hrelative => ?_⟩, harrives.standing.free, ?_⟩
  · rw [harrives.path] at hrelative
    cases hrelative
  · have hstat := stat_linkFree harrives.standing.plain harrives.standing.free
    unfold resolve
    rw [hfault, hreal]
    simp only

end Disk

end Dissect.Files
