/-
# Making a disposable file is all or nothing

A disposable file that is made holds exactly its data, and where none can be made the disk is what it
was, for any directory and any suffix, whatever goes wrong while the new file is opened or written
(`Disposable.create_all_or_nothing`).  There is one exception, and the theorem says exactly when it
arises: only failures of the operating system lead to the removal of the new file.  Any other one
comes out as it is and leaves the file behind with what had been written.

A suffix may hold slashes and dots, so the path that the operating system is given need not be the
one that the handle keeps: reading a text as a path forgets dots and repeated slashes.  That both
lead to the same place, so that the handle removes the file that was made, is the first part.
-/
import Dissect.Proofs.AvoidedNames
import Dissect.Proofs.DisposableFiles
import Dissect.Proofs.FollowedPaths
import Mathlib.Algebra.Order.BigOperators.Group.List
import Mathlib.Algebra.Order.Ring.Nat

namespace Dissect

open Files (Disk Location Node Tree Stop Errno)

/-! ## 1. Dots on the way -/

namespace Files

/-- The second list is the first one without some of its dots; the last name stays. -/
inductive DropsDots : List String → List String → Prop where
  | refl (names : List String) : DropsDots names names
  | keep (name : String) {names others : List String} :
      DropsDots names others → DropsDots (name :: names) (name :: others)
  | drop {names others : List String} :
      names ≠ [] → DropsDots names others → DropsDots ("." :: names) others

namespace DropsDots

variable {names others : List String}

theorem nil_iff (h : DropsDots names others) : names = [] ↔ others = [] := by
  induction h with
  | refl names => exact Iff.rfl
  | keep name _ _ => simp
  | drop hne _ ih => exact iff_of_false (List.cons_ne_nil _ _) fun he => hne (ih.mpr he)

theorem append_left (front : List String) (h : DropsDots names others) :
    DropsDots (front ++ names) (front ++ others) := by
  induction front with
  | nil => exact h
  | cons name front ih => exact .keep name ih

/-- All dots may go if the last name is none. -/
theorem of_last (h : ∀ name, names.getLast? = some name → name ≠ ".") :
    DropsDots names (undotted names) := by
  unfold undotted
  induction names with
  | nil => exact .refl []
  | cons name rest ih =>
    by_cases hrest : rest = []
    · subst hrest
      have hname : name ≠ "." := h name rfl
      simpa [hname] using DropsDots.refl [name]
    · have hlast : ∀ last, rest.getLast? = some last → last ≠ "." := fun last hl =>
        h last (by rw [List.getLast?_cons_of_ne_nil hrest, hl])
      by_cases hname : name = "."
      · subst hname
        simpa using DropsDots.drop hrest (ih hlast)
      · simpa [hname] using DropsDots.keep name (ih hlast)

end DropsDots

variable {t : Tree} {followLast : Bool}

/-- Where a walk stops does not depend on dots, and only dots are missing in what is left of it. -/
def Stop.Alike : Stop → Stop → Prop
  | .done loc, .done other => loc = other
  | .link loc target rest, .link other target' rest' =>
    loc = other ∧ target = target' ∧ DropsDots rest rest'
  | _, _ => False

theorem Stop.Alike.refl : ∀ stop : Stop, stop.Alike stop
  | .done _ => rfl
  | .link _ _ rest => ⟨rfl, rfl, .refl rest⟩

/-- A walk comes to the same stop without its dots.  The induction is on how they are left out. -/
theorem Descends.dropsDots {names others : List String} (h : DropsDots names others) :
    ∀ {loc : Location} {stop : Stop}, Descends t followLast loc names stop →
      ∃ stop', Descends t followLast loc others stop' ∧ stop.Alike stop' := by
  induction h with
  | refl names => exact fun hd => ⟨_, hd, Stop.Alike.refl _⟩
  | drop _ _ ih =>
    intro loc stop hd
    have hdir := directory_of_descend hd.descend
    exact ih (.of_descend ((descend_dot hdir).symm.trans hd.descend))
  | @keep name names others hdrops ih =>
    intro loc stop hd
    cases hd with
    | pass hpass hon =>
      obtain ⟨stop', hd', halike⟩ := ih hon
      exact ⟨stop', .pass hpass hd', halike⟩
    | last hlook hno =>
      obtain rfl := hdrops.nil_iff.mp rfl
      exact ⟨_, .last hlook hno, rfl⟩
    | link hlook hn hon =>
      exact ⟨_, .link hlook hn (hon.imp_left (mt hdrops.nil_iff.mpr)), rfl, rfl, hdrops⟩

/-- **Dots on the way do not matter**: what leads somewhere leads there without them. -/
theorem follow_dropsDots {links : Nat} {loc reached : Location} {names others : List String}
    (h : DropsDots names others) (hf : follow t followLast links loc names = .ok reached) :
    follow t followLast links loc others = .ok reached := by
  rw [← follows_iff] at hf ⊢
  induction hf generalizing others with
  | done hd =>
    obtain ⟨stop, hd', halike⟩ := hd.dropsDots h
    cases stop with
    | done other =>
      cases halike
      exact .done hd'
    | link _ _ _ => cases halike
  | link hd _ ih =>
    obtain ⟨stop, hd', halike⟩ := hd.dropsDots h
    cases stop with
    | done _ => cases halike
    | link other target' rest' =>
      obtain ⟨rfl, rfl, hrest⟩ := halike
      exact .link hd' (ih (hrest.append_left _))

end Files

/-! ## 2. The text of a path that was read -/

namespace Text

/-- The bytes of a text, and one more for its end. -/
def endedSize (cs : List Char) : Nat := (String.ofList cs).utf8ByteSize + 1

theorem endedSize_cons (c : Char) (cs : List Char) :
    endedSize (c :: cs) = c.utf8Size + endedSize cs := by
  have hcons : String.ofList (c :: cs) = String.singleton c ++ String.ofList cs := by
    rw [String.singleton_eq_ofList, ← String.ofList_append]
    rfl
  unfold endedSize
  rw [hcons, String.utf8ByteSize_append, String.utf8ByteSize_singleton, Nat.add_assoc]

/-- The slashes at which a text is cut end its pieces, so cutting keeps the size. -/
theorem sum_endedSize_splitChars (cs : List Char) :
    ((splitChars '/' cs).map endedSize).sum = endedSize cs := by
  induction cs with
  | nil => simp [splitChars]
  | cons c rest ih =>
    rw [endedSize_cons, ← ih]
    obtain ⟨piece, pieces, hsplit⟩ := splitChars_cons '/' rest
    by_cases hc : c = '/'
    · subst hc
      simp [splitChars, endedSize]
      decide
    · simp [splitChars, hc, hsplit, endedSize_cons, Nat.add_assoc]

/-- Joined texts are as long as they are with their ends, but for the last. -/
theorem utf8ByteSize_join : ∀ {parts : List String}, parts ≠ [] →
    (join "/" parts).utf8ByteSize + 1 = (parts.map fun part => endedSize part.toList).sum
  | [], hne => absurd rfl hne
  | [part], _ => by simp [join, endedSize]
  | part :: next :: rest, _ => by
    have ih := utf8ByteSize_join (List.cons_ne_nil next rest)
    have hslash : "/".utf8ByteSize = 1 := by decide
    have hjoin : join "/" (part :: next :: rest) = part ++ "/" ++ join "/" (next :: rest) := by
      simp [join]
    rw [hjoin, String.utf8ByteSize_append, String.utf8ByteSize_append, hslash, List.map_cons,
      List.sum_cons, ← ih]
    simp only [endedSize, String.ofList_toList]
    omega

end Text

namespace Path

/-- The components that characters name. -/
def componentsOf (cs : List Char) : List String :=
  ((Text.splitChars '/' cs).map String.ofList).filter fun part => part != "" && part != "."

/-- What is read of a text is no longer than the text. -/
theorem sum_endedSize_componentsOf (cs : List Char) :
    ((componentsOf cs).map fun part => Text.endedSize part.toList).sum ≤ Text.endedSize cs := by
  have hsub : (componentsOf cs).Sublist ((Text.splitChars '/' cs).map String.ofList) :=
    List.filter_sublist
  have hsum := (hsub.map fun part => Text.endedSize part.toList).sum_le_sum fun _ _ => Nat.zero_le _
  rw [List.map_map] at hsum
  refine Nat.le_trans hsum (Nat.le_of_eq ?_)
  rw [← Text.sum_endedSize_splitChars]
  exact congrArg List.sum (List.map_congr_left fun piece _ => by simp [Function.comp])

theorem componentsOf_slash (cs : List Char) : componentsOf ('/' :: cs) = componentsOf cs := by
  simp [componentsOf, Text.splitChars]

/-- The anchor that the leading slashes stand for is no longer than they are. -/
theorem anchorOf_le (cs : List Char) :
    ∃ slashes rest, cs = slashes ++ rest ∧ componentsOf cs = componentsOf rest ∧
      Text.endedSize cs = slashes.length + Text.endedSize rest ∧
      (anchorOf (String.ofList cs)).text.utf8ByteSize ≤ slashes.length := by
  refine ⟨cs.takeWhile (· = '/'), cs.dropWhile (· = '/'), (List.takeWhile_append_dropWhile).symm,
    ?_, ?_, ?_⟩
  · induction cs with
    | nil => rfl
    | cons c rest ih =>
      by_cases hc : c = '/'
      · subst hc
        simpa [componentsOf_slash] using ih
      · simp [hc]
  · induction cs with
    | nil => simp
    | cons c rest ih =>
      by_cases hc : c = '/'
      · subst hc
        have hslash : '/'.utf8Size = 1 := by decide
        rw [Text.endedSize_cons, ih, hslash]
        simp only [decide_true, List.takeWhile_cons_of_pos, List.dropWhile_cons_of_pos,
          List.length_cons]
        omega
      · simp [hc]
  · unfold anchorOf
    rw [String.toList_ofList]
    have hsize : Anchor.root.text.utf8ByteSize = 1 := by decide
    have hdouble : Anchor.doubleRoot.text.utf8ByteSize = 2 := by decide
    have hnone : Anchor.relative.text.utf8ByteSize = 0 := by decide
    split
    · omega
    · omega
    · rename_i hsome _
      have hpos := Nat.pos_of_ne_zero hsome
      omega

/-- The text of a path that was read off a text is no longer. -/
theorem utf8ByteSize_ofText {s : String} (hparts : (ofText s).parts ≠ []) :
    (ofText s).text.utf8ByteSize ≤ s.utf8ByteSize := by
  obtain ⟨slashes, rest, -, hcomponents, hsize, hanchor⟩ := anchorOf_le s.toList
  rw [String.ofList_toList] at hanchor
  have hread : (ofText s).parts = componentsOf rest := hcomponents
  have hjoin := Text.utf8ByteSize_join hparts
  have hsum := sum_endedSize_componentsOf rest
  rw [hread] at hjoin
  rw [text_of_parts hparts, String.utf8ByteSize_append, hread]
  have hanchor' : (ofText s).anchor.text.utf8ByteSize ≤ slashes.length := hanchor
  unfold Text.endedSize at hsize
  rw [String.ofList_toList] at hsize
  unfold Text.endedSize at hsum hjoin
  omega

end Path

/-! ## 3. The place of a new file -/

namespace Files

variable {t : Tree} {d d' : Disk} {path : String} {loc reached : Location}

/-- What is asked for as a directory is one. -/
theorem directory_of_follow_dot {followLast : Bool} {links : Nat} {front : List String}
    (h : follow t followLast links loc (front ++ ["."]) = .ok reached) :
    (t.get? reached).any Node.isDirectory = true := by
  by_cases hfront : front = []
  · subst hfront
    obtain ⟨rfl, hdir⟩ := of_follow_dot h
    exact hdir
  · obtain ⟨base, left, -, hlast⟩ := follow_append (List.cons_ne_nil "." []) h
    obtain ⟨rfl, hdir⟩ := of_follow_dot hlast
    exact hdir

namespace Disk

theorem endsWith_slash_iff : Text.endsWith path "/" = true ↔ path.toList.getLast? = some '/' := by
  have hslash : "/".toList = ['/'] := by decide
  unfold Text.endsWith
  rw [hslash, List.isSuffixOf_iff_suffix]
  constructor
  · rintro ⟨front, hfront⟩
    rw [← hfront, List.getLast?_concat]
  · intro hlast
    exact ⟨path.toList.dropLast, List.dropLast_append_getLast? _ hlast⟩

/-- A new file is not made at a path that asks for a directory. -/
theorem not_slash_of_create (h : d.create path = .ok d') : path.toList.getLast? ≠ some '/' := by
  intro hlast
  have hend := endsWith_slash_iff.mpr hlast
  unfold create at h
  cases hl : d.locate false (String.ofList (path.toList.reverse.dropWhile (· = '/')).reverse) with
  | error e =>
    rw [hl] at h
    cases h
  | ok loc =>
    rw [hl] at h
    cases hn : d.tree.get? loc <;> simp [bind, Except.bind, hn, hend] at h

/-- A path that was read off a text is absolute if the text starts with a slash. -/
theorem isAbsolute_ofText : (Path.ofText path).isAbsolute = Text.startsWith path "/" := by
  have hslash : "/".toList = ['/'] := by decide
  have hanchor : (Path.anchorOf path != .relative)
      = ((path.toList.takeWhile (· = '/')).length != 0) := by
    unfold Path.anchorOf
    split
    · rename_i hnone
      rw [hnone]
      rfl
    · rename_i htwo
      rw [htwo]
      rfl
    · rename_i hsome _
      exact (bne_iff_ne.mpr hsome).symm
  unfold Text.startsWith Path.ofText Path.isAbsolute
  rw [hslash]
  refine hanchor.trans ?_
  cases path.toList with
  | nil => rfl
  | cons c rest =>
    by_cases hc : c = '/'
    · simp [hc]
    · have hother : ('/' == c) = false := beq_false_of_ne (Ne.symm hc)
      simp [List.isPrefixOf, hc, hother]

/-- Where a raw text starts, the path that is read off it starts. -/
theorem rawStart_ofText (cwd : Location) :
    rawStart cwd path = if (Path.ofText path).isAbsolute then [] else cwd := by
  rw [isAbsolute_ofText]
  rfl

/-- A text that does not end with a slash names something last. -/
theorem rawNames_ne_nil (hne : path ≠ "") (hend : path.toList.getLast? ≠ some '/') :
    rawNames path ≠ [] := by
  obtain ⟨last, hlast⟩ := Option.isSome_iff_exists.mp
    (List.getLast?_isSome.mpr (Path.toList_ne_nil hne))
  have htail : '/' ∉ [last] := by
    intro hm
    rw [List.mem_singleton.mp hm, hlast] at hend
    exact hend rfl
  obtain ⟨front, piece, -, hsplit⟩ := Text.splitChars_append_last htail path.toList.dropLast
  rw [List.dropLast_append_getLast? _ hlast] at hsplit
  have hnamed : String.ofList (piece ++ [last]) ∈ (Text.splitAt path '/').filter (· != "") := by
    refine List.mem_filter.mpr ⟨List.mem_map_of_mem ?_, ?_⟩
    · rw [hsplit]
      simp
    · simp
  unfold rawNames
  split
  · simp
  · exact List.ne_nil_of_mem hnamed

/-- **What leads to a vacant place leads there once it is read as a path.** -/
theorem locate_ofText (hend : path.toList.getLast? ≠ some '/')
    (h : d.locate false path = .ok loc) (hv : d.tree.get? loc = none) :
    d.locate false (Path.ofText path).text = .ok loc := by
  obtain ⟨hne, hshort, hf⟩ := locate_ok h
  have hlast : ∀ name, (rawNames path).getLast? = some name → name ≠ "." := by
    rintro name hname rfl
    rw [← List.dropLast_append_getLast? _ hname] at hf
    have hdir := directory_of_follow_dot hf
    rw [hv] at hdir
    cases hdir
  have hdrops := DropsDots.of_last hlast
  rw [undotted_rawNames] at hdrops
  have hne' : (Path.ofText path).parts ≠ [] := fun he =>
    rawNames_ne_nil hne hend (hdrops.nil_iff.mpr he)
  have hproper := Path.ofText_proper path
  refine locate_of_follow (text_ne_empty hproper)
    (Nat.lt_of_le_of_lt (Path.utf8ByteSize_ofText hne') hshort) ?_
  rw [rawNames_text hproper hne', rawStart_text hproper hne', ← rawStart_ofText]
  exact follow_dropsDots hdrops hf

/-- A new file stands where nothing was, also for who reads its path. -/
theorem create_places (h : d.create path = .ok d') :
    ∃ loc, LeadsToVacant d path loc ∧ LeadsToVacant d (Path.ofText path).text loc ∧
      d' = { d with tree := d.tree.set loc (.file (.bytes []) 0o600) } := by
  have hend := not_slash_of_create h
  obtain ⟨loc, hl, hv, -, hd'⟩ := create_ok hend h
  exact ⟨loc, ⟨hl, hv⟩, ⟨locate_ofText hend hl hv, hv⟩, hd'⟩

/-- The disk with a disposable file at a location. -/
def withFile (d : Disk) (loc : Location) (data : Text.Bytes) : Disk :=
  { d with tree := d.tree.set loc (.file (.bytes data) 0o600) }

end Disk

theorem Tree.set_set (t : Tree) (loc : Location) (first second : Node) :
    (t.set loc first).set loc second = t.set loc second := by
  have hnodes : ∀ nodes : List (Location × Node),
      Assoc.set loc second (Assoc.set loc first nodes) = Assoc.set loc second nodes := by
    intro nodes
    induction nodes with
    | nil => simp [Assoc.set]
    | cons entry rest ih =>
      obtain ⟨l, node⟩ := entry
      by_cases hl : loc = l
      · subst hl
        simp [Assoc.set]
      · simp [Assoc.set, hl, ih]
  exact congrArg Tree.mk (hnodes t.nodes)

/-- What is written to a disposable file is all that it holds then. -/
theorem Disk.write_withFile {old data : Text.Bytes} (h : LeadsToVacant d path loc) :
    (d.withFile loc old).write path data = .ok (d.withFile loc data) := by
  have hne := Tree.ne_nil_of_vacant h.vacant
  have hnode : (d.withFile loc old).tree.get? loc = some (.file (.bytes old) 0o600) :=
    Tree.get?_set_self hne _
  have hlocate : (d.withFile loc old).locate false path = .ok loc :=
    ((SameBut.of_sameNodes (fun _ => rfl) h.vacant rfl).set h.vacant (.inl rfl)).locate h
  have hwrite : (d.withFile loc old).write path data = _ := Disk.write_file
    (Disk.locate_true hlocate fun target => by rw [hnode]; simp) hnode
  simpa [withFile, Tree.set_set] using hwrite

/-- A disposable file is read at its path. -/
theorem Disk.read_withFile {data : Text.Bytes} (h : LeadsToVacant d path loc) :
    (d.withFile loc data).read path = .ok data := by
  have hne := Tree.ne_nil_of_vacant h.vacant
  have hnode : (d.withFile loc data).tree.get? loc = some (.file (.bytes data) 0o600) :=
    Tree.get?_set_self hne _
  have hlocate : (d.withFile loc data).locate false path = .ok loc :=
    ((SameBut.of_sameNodes (fun _ => rfl) h.vacant rfl).set h.vacant (.inl rfl)).locate h
  have hfind := Disk.find_of_locate
    (Disk.locate_true hlocate fun target => by rw [hnode]; simp) hnode
  simp [Disk.read, Disk.stat, hfind, Except.map, bind, Except.bind, Content.data]

end Files

/-! ## 4. Filling the new file -/

/-- The host with a disposable file at a location, after names were taken. -/
def Host.withFile (host : Host) (loc : Location) (data : Text.Bytes) (namesTaken : Nat) : Host :=
  { host with disk := host.disk.withFile loc data, namesTaken }

namespace Disposable

variable {host : Host} {data : Text.Bytes} {directory : Option Path} {suffix : String}

/-- What may go wrong while a new file is filled: it is not opened, or no more than a part is
written. -/
inductive Interruption where
  | opening (fault : Fault)
  | writing (written : Text.Bytes) (fault : Fault)

namespace Interruption

/-- What is in the file then. -/
def written : Interruption → Text.Bytes
  | .opening _ => []
  | .writing written _ => written

/-- The failure, as it was raised. -/
def fault : Interruption → Fault
  | .opening fault => fault.afterRaise
  | .writing _ fault => fault.afterRaise

end Interruption

/-- Fills a new file, unless something goes wrong. -/
def fillUnless (interruption : Option Interruption) (data : Text.Bytes) (path : String) :
    Run Unit := do
  match interruption with
  | none => Run.changeDisk fun disk => Errno.name path (disk.write path data)
  | some (.opening fault) => throw fault.afterRaise
  | some (.writing written fault) => do
    Run.changeDisk fun disk => Errno.name path (disk.write path written)
    throw fault.afterRaise

/-- Makes a disposable file, unless something goes wrong while it is filled. -/
def createUnless (interruption : Option Interruption) (data : Text.Bytes)
    (directory : Option Path) (suffix : String) : Run Disposable :=
  createBy (fillUnless interruption data) directory suffix

/-- The library's own way to make a file is this one with trouble at the opening, if there is any. -/
theorem create_exec_unless :
    (create (.bytes data) directory suffix).exec host =
      (createUnless (host.openFault.map .opening) data directory suffix).exec host := by
  have hfill : ∀ path disk namesTaken,
      (fill path (.bytes data)).exec { host with disk, namesTaken } =
        (fillUnless (host.openFault.map .opening) data path).exec
          { host with disk, namesTaken } := by
    intro path disk namesTaken
    unfold fill
    rw [Run.exec_bind_ok (Run.exec_get _)]
    cases host.openFault <;> rfl
  unfold createUnless
  rw [create_eq_createBy, createBy_exec, createBy_exec]
  simp only [hfill]

variable {path : String} {loc : Location}

theorem fillUnless_none (h : Files.LeadsToVacant host.disk path loc) (namesTaken : Nat) :
    (fillUnless none data path).exec (host.withFile loc [] namesTaken) =
      (.ok (), host.withFile loc data namesTaken) := by
  unfold fillUnless
  rw [Run.exec_changeDisk]
  simp only [Host.withFile, Disk.write_withFile h, Errno.name]

theorem fillUnless_some (h : Files.LeadsToVacant host.disk path loc) (namesTaken : Nat)
    (interruption : Interruption) :
    (fillUnless (some interruption) data path).exec (host.withFile loc [] namesTaken) =
      (.error interruption.fault, host.withFile loc interruption.written namesTaken) := by
  cases interruption with
  | opening fault => rfl
  | writing written fault =>
    unfold fillUnless
    have hchange := Run.exec_changeDisk (fun disk => Errno.name path (disk.write path written))
      (host.withFile loc [] namesTaken)
    simp only [Host.withFile, Disk.write_withFile h, Errno.name] at hchange
    exact Run.exec_bind_ok hchange

/-- A handle that was just made takes its file away again. -/
theorem discard_withFile (hw : host.disk.tree.WellFormed) {path : Path}
    (h : Files.LeadsToVacant host.disk path.text loc) (written : Text.Bytes) (namesTaken : Nat) :
    discard { path } (host.withFile loc written namesTaken) = { host with namesTaken } := by
  have hback : (host.disk.withFile loc written).tree.erase loc = host.disk.tree :=
    (Tree.erase_set _ _ _).trans (hw.erase_vacant h.vacant)
  refine (discard_of_file (sameBut_set h.vacant written 0o600) h
    (Tree.get?_set_self (Tree.ne_nil_of_vacant h.vacant) _) rfl).trans ?_
  unfold Host.withFile
  simp only [hback]
  rfl

/-! ## 5. How making a file ends -/

/-- The search for a name under which the new file can be made. -/
def place (host : Host) (directory : Option Path) (suffix : String) :
    Except Fault (Disk × String × Nat) :=
  claim host.disk (directoryFor host directory) suffix maxAttempts host.namesTaken

/-- What goes wrong when a file is made, if anything does. -/
def trouble? (host : Host) (directory : Option Path) (suffix : String)
    (interruption : Option Interruption) : Option Fault :=
  match place host directory suffix with
  | .error fault => some fault
  | .ok _ => interruption.map Interruption.fault

/-- The new file was there, and then something went wrong that is none of the operating system's
failures. -/
def LeavesFile (host : Host) (directory : Option Path) (suffix : String)
    (interruption : Option Interruption) : Prop :=
  (∃ made, place host directory suffix = .ok made) ∧
    ∃ cause, interruption = some cause ∧ cause.fault.isA .osError = false

/-- Nothing happened, except that names may have been taken. -/
def Untouched (host after : Host) : Prop := ∃ namesTaken, after = { host with namesTaken }

/-- One file was made, where the path leads and nothing was. -/
def Adds (host after : Host) (path : String) (data : Text.Bytes) : Prop :=
  ∃ loc namesTaken, Files.LeadsToVacant host.disk path loc ∧
    after = host.withFile loc data namesTaken

variable {after : Host} {interruption : Option Interruption} {namesTaken : Nat} {disk : Disk}

theorem Adds.read (h : Adds host after path data) : after.disk.read path = .ok data := by
  obtain ⟨loc, namesTaken, hv, rfl⟩ := h
  exact Disk.read_withFile hv

theorem Adds.not_untouched (h : Adds host after path data) : ¬ Untouched host after := by
  obtain ⟨loc, namesTaken, hv, rfl⟩ := h
  rintro ⟨other, hsame⟩
  have hdisk : host.disk.withFile loc data = host.disk := congrArg Host.disk hsame
  have hnode : (host.disk.withFile loc data).tree.get? loc = _ :=
    Tree.get?_set_self (Tree.ne_nil_of_vacant hv.vacant) _
  rw [hdisk, hv.vacant] at hnode
  cases hnode

/-- The place that was found is free, and now an empty file is there. -/
theorem place_ok (h : place host directory suffix = .ok (disk, path, namesTaken)) :
    ∃ loc, Files.LeadsToVacant host.disk path loc ∧
      Files.LeadsToVacant host.disk (Path.ofText path).text loc ∧
      disk = host.disk.withFile loc [] := by
  obtain ⟨k, -, -, -, hcreate⟩ := claim_ok h
  exact Disk.create_places hcreate

theorem createUnless_refused {fault : Fault} (h : place host directory suffix = .error fault) :
    (createUnless interruption data directory suffix).exec host =
      (.error (recast createFault fault), host) := by
  unfold createUnless
  rw [createBy_exec]
  unfold place at h
  simp only [h]

theorem createUnless_made (data : Text.Bytes)
    (h : place host directory suffix = .ok (disk, path, namesTaken)) :
    ∃ loc, Files.LeadsToVacant host.disk (Path.ofText path).text loc ∧
      (createUnless none data directory suffix).exec host =
        (.ok { path := Path.ofText path }, host.withFile loc data namesTaken) := by
  obtain ⟨loc, hv, hread, rfl⟩ := place_ok h
  refine ⟨loc, hread, ?_⟩
  unfold createUnless
  rw [createBy_exec]
  unfold place at h
  have hfill : (fillUnless none data path).exec _ = _ := fillUnless_none hv namesTaken
  unfold Host.withFile at hfill
  simp only [h, hfill]
  rfl

/-- A file that was interrupted is taken away again where the operating system is to blame. -/
theorem createUnless_interrupted (data : Text.Bytes) (hw : host.disk.tree.WellFormed)
    (cause : Interruption) (h : place host directory suffix = .ok (disk, path, namesTaken)) :
    ∃ loc, Files.LeadsToVacant host.disk (Path.ofText path).text loc ∧
      (createUnless (some cause) data directory suffix).exec host =
        (.error (recast (writeFault path) cause.fault),
          if cause.fault.isA .osError then { host with namesTaken }
          else host.withFile loc cause.written namesTaken) := by
  obtain ⟨loc, hv, hread, rfl⟩ := place_ok h
  refine ⟨loc, hread, ?_⟩
  unfold createUnless
  rw [createBy_exec]
  unfold place at h
  have hfill : (fillUnless (some cause) data path).exec _ = _ := fillUnless_some hv namesTaken cause
  have hdiscard := discard_withFile hw hread cause.written namesTaken
  unfold Host.withFile at hfill hdiscard
  simp only [h, hfill, hdiscard]
  unfold recast
  cases cause.fault.isA .osError <;> rfl

/-- The failure that comes out is caused by the operating system's one, if that can be told, and is
any other one itself. -/
theorem recast_tells (wording : String → String) (trouble : Fault) :
    let fault := recast (·.retold fun message => .ofText .ephemeralResourceError (wording message))
      trouble
    (trouble.isA .osError = true →
      (∀ message, trouble.tell = .ok message →
        fault.kind = .ephemeralResourceError ∧ fault.cause = some trouble) ∧
      ∀ untold, trouble.tell = .error untold → fault = untold.whileHandling trouble) ∧
    (trouble.isA .osError = false → fault = trouble) := by
  intro fault
  refine ⟨fun hos => ⟨fun message htell => ?_, fun untold htell => ?_⟩, fun hos => ?_⟩
  · simp only [fault, recast, if_pos hos, Fault.retold, htell]
    exact ⟨rfl, rfl⟩
  · simp only [fault, recast, if_pos hos, Fault.retold, htell]
  · simp only [fault, recast, hos, Bool.false_eq_true, if_false]

/-- **Making a disposable file is all or nothing**, unless something other than the operating system
interrupts it: then, and only then, the new file stays although there is no handle on it.  A failure
of the operating system is the cause of the one that comes out; where its message cannot be told,
the trouble with that comes out instead. -/
theorem create_all_or_nothing (hw : host.disk.tree.WellFormed) :
    ∃ result after, (createUnless interruption data directory suffix).exec host = (result, after) ∧
      match trouble? host directory suffix interruption with
      | none => ∃ resource, result = .ok resource ∧
          after.disk.read resource.path.text = .ok data ∧ Adds host after resource.path.text data
      | some trouble => ∃ fault, result = .error fault ∧
          (trouble.isA .osError = true →
            (∀ message, trouble.tell = .ok message →
              fault.kind = .ephemeralResourceError ∧ fault.cause = some trouble) ∧
            ∀ untold, trouble.tell = .error untold → fault = untold.whileHandling trouble) ∧
          (trouble.isA .osError = false → fault = trouble) ∧
          (Untouched host after ↔ ¬ LeavesFile host directory suffix interruption) ∧
          ∀ cause, interruption = some cause → LeavesFile host directory suffix interruption →
            ∃ path, Adds host after path cause.written := by
  unfold trouble?
  cases hplace : place host directory suffix with
  | error trouble =>
    have hnone : ¬ LeavesFile host directory suffix interruption := by
      rintro ⟨⟨made, hmade⟩, -⟩
      rw [hplace] at hmade
      cases hmade
    obtain ⟨hos, hother⟩ := recast_tells _ trouble
    exact ⟨_, _, createUnless_refused hplace, _, rfl, hos, hother,
      iff_of_true ⟨host.namesTaken, rfl⟩ hnone, fun _ _ hleaves => absurd hleaves hnone⟩
  | ok made =>
    obtain ⟨disk, path, namesTaken⟩ := made
    cases interruption with
    | none =>
      obtain ⟨loc, hv, hexec⟩ := createUnless_made data hplace
      have hadds : Adds host _ _ data := ⟨loc, namesTaken, hv, rfl⟩
      exact ⟨_, _, hexec, _, rfl, hadds.read, hadds⟩
    | some cause =>
      obtain ⟨loc, hv, hexec⟩ := createUnless_interrupted data hw cause hplace
      obtain ⟨hos, hother⟩ := recast_tells _ cause.fault
      refine ⟨_, _, hexec, _, rfl, hos, hother, ?_⟩
      cases hblame : cause.fault.isA .osError with
      | true =>
        have hnone : ¬ LeavesFile host directory suffix (some cause) := by
          rintro ⟨-, _, hsome, hother⟩
          cases hsome
          rw [hblame] at hother
          cases hother
        exact ⟨iff_of_true ⟨namesTaken, rfl⟩ hnone, fun _ _ hleaves => absurd hleaves hnone⟩
      | false =>
        have hleaves : LeavesFile host directory suffix (some cause) :=
          ⟨⟨_, hplace⟩, cause, rfl, hblame⟩
        have hadds : Adds host (host.withFile loc cause.written namesTaken)
            (Path.ofText path).text cause.written := ⟨loc, namesTaken, hv, rfl⟩
        refine ⟨iff_of_false hadds.not_untouched (not_not_intro hleaves), ?_⟩
        intro other hsome _
        cases hsome
        exact ⟨_, hadds⟩

/-- An interrupt from the keyboard after the first of two bytes: the file stays with that byte. -/
theorem create_interrupted :
    let host : Host := { disk := { tree := ⟨[(["tmp"], .directory 0o777)]⟩ } }
    let cause : Interruption := .writing [0xca] { kind := .keyboardInterrupt }
    host.disk.tree.WellFormed ∧
      ∃ after path, (createUnless (some cause) [0xca, 0xfe] none ".class").exec host =
          (.error cause.fault, after) ∧
        Adds host after path [0xca] ∧ ¬ Untouched host after := by
  intro host cause
  have hw : host.disk.tree.WellFormed := by
    refine Tree.WellFormed.of_nodes fun entry hmem name hname => ?_
    cases List.mem_singleton.mp hmem
    cases hname
    exact ⟨by decide, rfl⟩
  have hplace : (place host none ".class").toBool = true := by decide +kernel
  have hleaves : LeavesFile host none ".class" (some cause) := by
    refine ⟨?_, cause, rfl, by decide⟩
    cases hp : place host none ".class" with
    | error fault =>
      rw [hp] at hplace
      cases hplace
    | ok made => exact ⟨made, rfl⟩
  obtain ⟨⟨made, hmade⟩, -⟩ := id hleaves
  have htrouble : trouble? host none ".class" (some cause) = some cause.fault := by
    unfold trouble?
    rw [hmade]
    rfl
  have hends : ∃ result after, (createUnless (some cause) [0xca, 0xfe] none ".class").exec host =
      (result, after) ∧ _ := create_all_or_nothing hw
  rw [htrouble] at hends
  obtain ⟨_, after, hexec, fault, rfl, -, hother, huntouched, hadds⟩ := hends
  obtain ⟨path, hadded⟩ := hadds cause rfl hleaves
  cases hother (by decide)
  exact ⟨hw, after, path, hexec, hadded, fun h => huntouched.mp h hleaves⟩

end Disposable

end Dissect
