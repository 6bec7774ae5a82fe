/-
# Following paths through a changing tree

The paths that lead somewhere are told by what each name on the way does (`Descends`, `Follows`):
it leads on from a directory (`Passes`), ends the way, or is a link to go on from.  What is said of
all of them is proved by induction on the way.

Where a path leads is decided by the directories and links on the way alone.  So it leads to the
same place in every later tree that still has them and no new links (`follow_keeps`), which is what
all operations on files leave true: they put a node where nothing was, or take a file away.

What leads to a vacant place in a directory leads to the directory first (`follow_append`), so the
place where a new file appears can be told from its name and the directory alone.
-/
import Dissect.Proofs.ModuleTables
import Dissect.Proofs.PathTexts

namespace Dissect.Files

/-! ## 1. Nodes of a changed tree -/

/-- A path can lead on through the node: it is a directory or a link. -/
def Node.leadsOn : Node → Bool
  | .directory _ | .link _ => true
  | .file .. | .pipe _ => false

theorem Node.leadsOn_of_isFile {node : Node} (h : node.isFile = true) : node.leadsOn = false := by
  cases node with
  | file => rfl
  | _ => cases h

namespace Tree

variable {t t' t'' : Tree} {loc other : Location}

theorem ne_nil_of_vacant (h : t.get? loc = none) : loc ≠ [] := fun he => by
  rw [he] at h
  simp [get?] at h

/-- Taking out a location takes out what is below it and nothing else. -/
theorem get?_erase (h : loc ≠ []) (other : Location) :
    (t.erase loc).get? other = if loc.isPrefixOf other then none else t.get? other := by
  have hl := Assoc.lookup_filter (fun l => !loc.isPrefixOf l) other t.nodes
  unfold get?
  by_cases ho : other = []
  · have hp : loc.isPrefixOf other = false := by
      cases loc with
      | nil => exact absurd rfl h
      | cons a rest => rw [ho]; rfl
    simp [ho, h]
  · rw [if_neg ho, if_neg ho]
    refine Eq.trans hl ?_
    cases loc.isPrefixOf other <;> rfl

theorem get?_erase_self (h : loc ≠ []) : (t.erase loc).get? loc = none := by
  rw [get?_erase h, if_pos (List.isPrefixOf_iff_prefix.mpr (List.prefix_refl loc))]

/-- Taking out a location with nothing below it takes out nothing else. -/
theorem get?_erase_of_ne (h : loc ≠ [])
    (hleaf : ∀ rest, rest ≠ [] → t.get? (loc ++ rest) = none) (hne : other ≠ loc) :
    (t.erase loc).get? other = t.get? other := by
  rw [get?_erase h]
  split
  · rename_i hp
    obtain ⟨rest, rfl⟩ := List.isPrefixOf_iff_prefix.mp hp
    exact (hleaf rest fun he => hne (by rw [he, List.append_nil])).symm
  · rfl

/-- Whatever is there is one of the nodes that the tree lists. -/
theorem mem_of_get? {node : Node} (hne : loc ≠ []) (h : t.get? loc = some node) :
    (loc, node) ∈ t.nodes := by
  unfold get? at h
  rw [if_neg hne] at h
  exact Assoc.mem_of_lookup h

theorem isSome_of_mem {entry : Location × Node} (h : entry ∈ t.nodes) :
    (t.get? entry.1).isSome = true := by
  unfold get?
  split
  · rfl
  · exact List.lookup_isSome_iff.mpr ⟨entry, h, by simp⟩

/-- Taking out a location at and below which nothing is changes nothing. -/
theorem erase_of_vacant (h : ∀ rest, t.get? (loc ++ rest) = none) : t.erase loc = t := by
  have hall : t.nodes.filter (fun entry => !loc.isPrefixOf entry.1) = t.nodes := by
    refine List.filter_eq_self.mpr fun entry hmem => ?_
    rw [Bool.not_eq_true', Bool.eq_false_iff]
    intro hp
    obtain ⟨rest, hrest⟩ := List.isPrefixOf_iff_prefix.mp hp
    have hthere := isSome_of_mem hmem
    rw [← hrest, h rest] at hthere
    cases hthere
  exact congrArg Tree.mk hall

/-- What was put at a location goes with it. -/
theorem erase_set (t : Tree) (loc : Location) (node : Node) :
    (t.set loc node).erase loc = t.erase loc := by
  have hself : loc.isPrefixOf loc = true :=
    List.isPrefixOf_iff_prefix.mpr (List.prefix_refl loc)
  have hnodes : (Assoc.set loc node t.nodes).filter (fun entry => !loc.isPrefixOf entry.1) =
      t.nodes.filter fun entry => !loc.isPrefixOf entry.1 := by
    induction t.nodes with
    | nil => simp [Assoc.set, hself]
    | cons entry rest ih =>
      obtain ⟨l, old⟩ := entry
      rw [Assoc.set]
      split
      · rename_i hl
        simp [← beq_iff_eq.mp hl, hself]
      · rw [List.filter_cons, List.filter_cons, ih]
  exact congrArg Tree.mk hnodes

theorem erase_erase (t : Tree) (loc : Location) : (t.erase loc).erase loc = t.erase loc := by
  refine congrArg Tree.mk ?_
  exact (List.filter_filter).trans (List.filter_congr fun entry _ => Bool.and_self _)

/-- The names of a tree are names, and everything stands in a directory. -/
structure WellFormed (t : Tree) : Prop where
  plain : ∀ loc name, (t.get? (loc ++ [name])).isSome = true → Path.IsPlain name ∧ name ≠ ".."
  grounded : ∀ loc name, (t.get? (loc ++ [name])).isSome = true →
    (t.get? loc).any Node.isDirectory = true

/-- It is enough to look at the nodes that the tree lists. -/
theorem WellFormed.of_nodes
    (h : ∀ entry ∈ t.nodes, ∀ name ∈ entry.1.getLast?,
      (Path.IsPlain name ∧ name ≠ "..") ∧
        (t.get? entry.1.dropLast).any Node.isDirectory = true) : t.WellFormed := by
  have hlisted : ∀ loc name, (t.get? (loc ++ [name])).isSome = true →
      (Path.IsPlain name ∧ name ≠ "..") ∧ (t.get? loc).any Node.isDirectory = true := by
    intro loc name hs
    rw [get?, if_neg (by simp), List.lookup_isSome_iff] at hs
    obtain ⟨entry, hmem, heq⟩ := hs
    have hentry := h entry hmem name
    rw [← eq_of_beq heq, List.getLast?_concat, List.dropLast_concat] at hentry
    exact hentry rfl
  exact ⟨fun loc name hs => (hlisted loc name hs).1, fun loc name hs => (hlisted loc name hs).2⟩

/-- Whatever is there is below directories only. -/
theorem WellFormed.directory_above (h : t.WellFormed) : ∀ {rest : List String} {loc : Location},
    rest ≠ [] → (t.get? (loc ++ rest)).isSome = true → (t.get? loc).any Node.isDirectory = true
  | [], _, hne, _ => absurd rfl hne
  | [name], loc, _, hs => h.grounded loc name hs
  | name :: next :: more, loc, _, hs => by
    have hs' : (t.get? ((loc ++ [name]) ++ (next :: more))).isSome = true := by simpa using hs
    have habove := h.directory_above (List.cons_ne_nil next more) hs'
    refine h.grounded loc name ?_
    cases hn : t.get? (loc ++ [name]) with
    | none => rw [hn] at habove; cases habove
    | some node => rfl

/-- Nothing is below a place that is vacant or holds no directory. -/
theorem WellFormed.vacant_below (h : t.WellFormed)
    (hloc : (t.get? loc).any Node.isDirectory = false) {rest : List String} (hrest : rest ≠ []) :
    t.get? (loc ++ rest) = none := by
  cases hn : t.get? (loc ++ rest) with
  | none => rfl
  | some node =>
    have habove := h.directory_above hrest (by rw [hn]; rfl)
    rw [hloc] at habove
    cases habove

/-- Nothing is further below a place if nothing is directly below it. -/
theorem WellFormed.leaf (h : t.WellFormed) (hleaf : ∀ name, t.get? (loc ++ [name]) = none) :
    ∀ rest, rest ≠ [] → t.get? (loc ++ rest) = none
  | [], hne => absurd rfl hne
  | [name], _ => hleaf name
  | name :: next :: deeper, _ => by
    have hempty : (t.get? (loc ++ [name])).any Node.isDirectory = false := by
      rw [hleaf name]
      rfl
    rw [List.append_cons]
    exact h.vacant_below hempty (List.cons_ne_nil next deeper)

/-- Taking out a location of a proper tree at which nothing is changes nothing. -/
theorem WellFormed.erase_vacant (h : t.WellFormed) (hv : t.get? loc = none) : t.erase loc = t := by
  refine erase_of_vacant fun rest => ?_
  by_cases hrest : rest = []
  · rw [hrest, List.append_nil, hv]
  · exact h.vacant_below (by rw [hv]; rfl) hrest

/-- A proper tree stays one when a file is put in a directory, where no directory was. -/
theorem WellFormed.set_file (h : t.WellFormed) {name : String}
    (hdir : (t.get? loc).any Node.isDirectory = true) (hn : Path.IsPlain name ∧ name ≠ "..")
    (hold : (t.get? (loc ++ [name])).any Node.isDirectory = false) (content : Content) (mode : Nat) :
    (t.set (loc ++ [name]) (.file content mode)).WellFormed := by
  refine ⟨fun l last hthere => ?_, fun l last hthere => ?_⟩
  · by_cases hl : l ++ [last] = loc ++ [name]
    · obtain ⟨-, hlast⟩ := List.append_inj' hl rfl
      rw [List.singleton_inj.mp hlast]
      exact hn
    · rw [get?_set_of_ne hl] at hthere
      exact h.plain l last hthere
  · have hground : (t.get? l).any Node.isDirectory = true := by
      by_cases hl : l ++ [last] = loc ++ [name]
      · rw [(List.append_inj' hl rfl).1]
        exact hdir
      · rw [get?_set_of_ne hl] at hthere
        exact h.grounded l last hthere
    rw [get?_set_of_ne]
    · exact hground
    · rintro rfl
      rw [hold] at hground
      cases hground

theorem childName?_child (loc : Location) (name : String) :
    childName? loc (loc ++ [name]) = some name := by
  simp [childName?]

theorem childName?_some {l : Location} {name : String} (h : childName? loc l = some name) :
    l = loc ++ [name] := by
  unfold childName? at h
  cases hl : l.getLast? with
  | none => simp [hl] at h
  | some last =>
    simp only [hl] at h
    split at h
    · rename_i hdrop
      cases h
      obtain ⟨front, rfl⟩ := List.getLast?_eq_some_iff.mp hl
      rw [List.dropLast_concat] at hdrop
      rw [hdrop]
    · cases h

/-- The names in a directory are those under which there is a node. -/
theorem mem_children_iff {name : String} :
    name ∈ t.children loc ↔ ∃ node, t.get? (loc ++ [name]) = some node := by
  have hne : loc ++ [name] ≠ [] := by simp
  unfold children get?
  rw [if_neg hne, List.mem_filterMap]
  constructor
  · rintro ⟨⟨l, node⟩, hmem, hname⟩
    rw [childName?_some hname] at hmem
    exact Option.isSome_iff_exists.mp (List.lookup_isSome_iff.mpr ⟨_, hmem, by simp⟩)
  · rintro ⟨node, hnode⟩
    obtain ⟨⟨l, found⟩, hmem, hl⟩ :=
      List.lookup_isSome_iff.mp (Option.isSome_iff_exists.mpr ⟨node, hnode⟩)
    have heq : loc ++ [name] = l := by simpa using hl
    subst heq
    exact ⟨_, hmem, childName?_child loc name⟩

theorem directory_of_isDirectory (h : (t.get? loc).any Node.isDirectory = true) :
    ∃ mode, t.get? loc = some (.directory mode) := by
  cases hn : t.get? loc with
  | none => rw [hn] at h; cases h
  | some node =>
    rw [hn] at h
    cases node with
    | directory mode => exact ⟨mode, rfl⟩
    | _ => cases h

/-! ## 2. Trees in which paths lead the same way -/

/-- The later tree still has every directory and link, and no new links. -/
structure Keeps (t t' : Tree) : Prop where
  directory : ∀ loc mode, t.get? loc = some (.directory mode) → t'.get? loc = some (.directory mode)
  link : ∀ loc target, t.get? loc = some (.link target) ↔ t'.get? loc = some (.link target)

namespace Keeps

/-- Trees with the same nodes. -/
theorem of_eq (h : ∀ l, t'.get? l = t.get? l) : t.Keeps t' where
  directory := fun l mode hl => by rw [h l]; exact hl
  link := fun l target => by rw [h l]

theorem isDirectory (h : t.Keeps t') (hd : (t.get? loc).any Node.isDirectory = true) :
    (t'.get? loc).any Node.isDirectory = true := by
  obtain ⟨mode, hmode⟩ := directory_of_isDirectory hd
  rw [h.directory loc mode hmode]
  rfl

/-- Changing one place that holds no directory or link, and putting no link there. -/
theorem of_change (hn : ∀ node, t.get? loc = some node → node.leadsOn = false)
    (hl : ∀ target, t'.get? loc ≠ some (.link target))
    (ho : ∀ l, l ≠ loc → t'.get? l = t.get? l) : t.Keeps t' where
  directory := fun l mode h => by
    by_cases he : l = loc
    · rw [he] at h
      cases hn _ h
    · rw [ho l he, h]
  link := fun l target => by
    by_cases he : l = loc
    · subst he
      exact ⟨fun h => Bool.noConfusion (hn _ h), fun h => absurd h (hl target)⟩
    · rw [ho l he]

theorem trans (h : t.Keeps t') (h' : t'.Keeps t'') : t.Keeps t'' where
  directory := fun l mode hl => h'.directory l mode (h.directory l mode hl)
  link := fun l target => (h.link l target).trans (h'.link l target)

/-- A file put where no directory and no link is. -/
theorem set_file (hloc : loc ≠ []) (data : Text.Bytes) (mode : Nat)
    (hn : ∀ node, t.get? loc = some node → node.isFile = true) :
    t.Keeps (t.set loc (.file (.bytes data) mode)) :=
  of_change (fun node hnode => Node.leadsOn_of_isFile (hn node hnode))
    (fun target => by rw [Tree.get?_set_self hloc]; simp) fun _ hl => Tree.get?_set_of_ne hl _

end Keeps

end Tree

/-! ## 3. Paths that lead somewhere -/

/-- The name is looked up in the directory at the location. -/
structure LooksUp (t : Tree) (loc : Location) (name : String) : Prop where
  directory : (t.get? loc).any Node.isDirectory = true
  dot : name ≠ "."
  up : name ≠ ".."
  fits : ¬ maxNameBytes < name.utf8ByteSize

/-- A name on the way leads from a directory to the next location. -/
inductive Passes (t : Tree) : Location → String → Location → Prop
  | dot {loc : Location} : (t.get? loc).any Node.isDirectory = true → Passes t loc "." loc
  | up {loc : Location} : (t.get? loc).any Node.isDirectory = true → Passes t loc ".." loc.dropLast
  | down {loc : Location} {name : String} : LooksUp t loc name →
      (t.get? (loc ++ [name])).any Node.isDirectory = true → Passes t loc name (loc ++ [name])

/-- The walks along names that end: where the names lead, or at a link that is to be followed. -/
inductive Descends (t : Tree) (followLast : Bool) : Location → List String → Stop → Prop
  | nil (loc : Location) : Descends t followLast loc [] (.done loc)
  | pass {loc next : Location} {name : String} {rest : List String} {stop : Stop} :
      Passes t loc name next → Descends t followLast next rest stop →
        Descends t followLast loc (name :: rest) stop
  | last {loc : Location} {name : String} : LooksUp t loc name →
      (followLast = true → ∀ target, t.get? (loc ++ [name]) ≠ some (.link target)) →
        Descends t followLast loc [name] (.done (loc ++ [name]))
  | link {loc : Location} {name target : String} {rest : List String} : LooksUp t loc name →
      t.get? (loc ++ [name]) = some (.link target) → rest ≠ [] ∨ followLast = true →
        Descends t followLast loc (name :: rest) (.link loc target rest)

/-- The ways through at most the given number of links that lead somewhere. -/
inductive Follows (t : Tree) (followLast : Bool) : Nat → Location → List String → Location → Prop
  | done {links : Nat} {loc : Location} {names : List String} {reached : Location} :
      Descends t followLast loc names (.done reached) → Follows t followLast links loc names reached
  | link {links : Nat} {loc : Location} {names : List String} {directory : Location}
      {target : String} {rest : List String} {reached : Location} :
      Descends t followLast loc names (.link directory target rest) →
      Follows t followLast links (rawStart directory target) (rawNames target ++ rest) reached →
        Follows t followLast (links + 1) loc names reached

variable {t t' : Tree} {followLast : Bool} {loc next reached : Location} {name : String}
  {names rest more : List String} {stop : Stop} {links : Nat}

theorem descend_dot (hdir : (t.get? loc).any Node.isDirectory = true) :
    descend t followLast loc ("." :: rest) = descend t followLast loc rest := by
  simp [descend, hdir]

theorem descend_up (hdir : (t.get? loc).any Node.isDirectory = true) :
    descend t followLast loc (".." :: rest) = descend t followLast loc.dropLast rest := by
  simp [descend, hdir]

theorem LooksUp.descend (h : LooksUp t loc name) :
    descend t followLast loc (name :: rest) =
      match t.get? (loc ++ [name]) with
      | none => if rest.isEmpty then .ok (.done (loc ++ [name])) else .error .noEntry
      | some (.link target) =>
        if rest.isEmpty && !followLast then .ok (.done (loc ++ [name]))
        else .ok (.link loc target rest)
      | some _ => Files.descend t followLast (loc ++ [name]) rest := by
  rw [Files.descend, h.directory]
  cases t.get? (loc ++ [name]) with
  | none => simp only [Bool.not_true, Bool.false_eq_true, if_false, h.dot, h.up, h.fits]
  | some node =>
    cases node <;> simp only [Bool.not_true, Bool.false_eq_true, if_false, h.dot, h.up, h.fits]

/-- A name on the way leaves the rest of the walk to do. -/
theorem Passes.descend (h : Passes t loc name next) :
    descend t followLast loc (name :: rest) = descend t followLast next rest := by
  cases h with
  | dot hdir => exact descend_dot hdir
  | up hdir => exact descend_up hdir
  | down hlook hdir =>
    obtain ⟨mode, hmode⟩ := Tree.directory_of_isDirectory hdir
    rw [hlook.descend, hmode]

theorem directory_of_descend (h : descend t followLast loc (name :: rest) = .ok stop) :
    (t.get? loc).any Node.isDirectory = true := by
  cases hdir : (t.get? loc).any Node.isDirectory with
  | true => rfl
  | false => simp [descend, hdir] at h

/-- A name on a walk that ends was looked up, if it is no dots. -/
theorem looksUp_of_descend (h : descend t followLast loc (name :: rest) = .ok stop)
    (hdot : name ≠ ".") (hup : name ≠ "..") : LooksUp t loc name where
  directory := directory_of_descend h
  dot := hdot
  up := hup
  fits := fun hlong => by simp [descend, directory_of_descend h, hdot, hup, hlong] at h

/-- A walk fails for a name that is missing, too long or in no directory. -/
theorem descend_error {e : Errno} : ∀ {names : List String} {loc : Location},
    descend t followLast loc names = .error e →
      e = .notDirectory ∨ e = .noEntry ∨ e = .nameTooLong
  | [], _, h => by cases h
  | name :: rest, loc, h => by
    unfold descend at h
    split at h
    · cases h
      exact .inl rfl
    split at h
    · exact descend_error h
    split at h
    · exact descend_error h
    split at h
    · cases h
      exact .inr (.inr rfl)
    split at h
    · split at h
      · cases h
      · cases h
        exact .inr (.inl rfl)
    · split at h <;> cases h
    · exact descend_error h

/-- The walk comes to an end as the relation says.  The induction is on the names. -/
theorem Descends.of_descend : ∀ {names : List String} {loc : Location},
    descend t followLast loc names = .ok stop → Descends t followLast loc names stop
  | [], loc, h => by
    cases h
    exact .nil loc
  | name :: rest, loc, h => by
    have hdir := directory_of_descend h
    by_cases hdot : name = "."
    · subst hdot
      exact .pass (.dot hdir) (.of_descend ((Passes.dot hdir).descend.symm.trans h))
    by_cases hup : name = ".."
    · subst hup
      exact .pass (.up hdir) (.of_descend ((Passes.up hdir).descend.symm.trans h))
    have hlook := looksUp_of_descend h hdot hup
    rw [hlook.descend] at h
    -- a place that holds no link and no directory ends the walk
    have hlast (hempty : rest = []) (hstop : stop = .done (loc ++ [name]))
        (hno : followLast = true → ∀ target, t.get? (loc ++ [name]) ≠ some (.link target)) :
        Descends t followLast loc (name :: rest) stop := by
      subst hempty hstop
      exact .last hlook hno
    cases hn : t.get? (loc ++ [name]) with
    | none =>
      simp only [hn] at h
      cases rest with
      | cons more others => cases h
      | nil => exact hlast rfl (Except.ok.inj h).symm fun _ target => by simp [hn]
    | some node =>
      simp only [hn] at h
      cases node with
      | directory mode => exact .pass (.down hlook (by rw [hn]; rfl)) (.of_descend h)
      | link target =>
        cases hend : rest.isEmpty && !followLast with
        | true =>
          obtain ⟨hempty, hnot⟩ := Bool.and_eq_true_iff.mp hend
          rw [hend] at h
          refine hlast (List.isEmpty_iff.mp hempty) (Except.ok.inj h).symm fun hfollow => ?_
          rw [hfollow] at hnot
          cases hnot
        | false =>
          rw [hend] at h
          cases h
          refine .link hlook hn ?_
          cases rest <;> simp_all
      | _ =>
        cases rest with
        | cons more others =>
          have hbelow := directory_of_descend h
          rw [hn] at hbelow
          cases hbelow
        | nil => exact hlast rfl (Except.ok.inj h).symm fun _ target => by simp [hn]

theorem Descends.descend (h : Descends t followLast loc names stop) :
    descend t followLast loc names = .ok stop := by
  induction h with
  | nil loc => rfl
  | pass hpass _ ih => rw [hpass.descend, ih]
  | @last loc name hlook hno =>
    rw [hlook.descend]
    cases hn : t.get? (loc ++ [name]) with
    | none => rfl
    | some node =>
      cases node with
      | link target =>
        cases followLast with
        | true => exact absurd hn (hno rfl target)
        | false => rfl
      | _ => rfl
  | link hlook hn hon =>
    rw [hlook.descend, hn]
    rcases hon with hne | hfollow
    · simp [hne]
    · simp [hfollow]

/-- **The walks that end, by what each name does.** -/
theorem descends_iff :
    Descends t followLast loc names stop ↔ descend t followLast loc names = .ok stop :=
  ⟨Descends.descend, Descends.of_descend⟩

theorem Follows.of_follow : ∀ {links : Nat} {loc : Location} {names : List String},
    follow t followLast links loc names = .ok reached → Follows t followLast links loc names reached
  | links, loc, names, h => by
    unfold follow at h
    cases hd : descend t followLast loc names with
    | error e => rw [hd] at h; cases h
    | ok stop =>
      rw [hd] at h
      cases stop with
      | done place =>
        cases h
        exact .done (.of_descend hd)
      | link directory target rest =>
        cases links with
        | zero => cases h
        | succ links => exact .link (.of_descend hd) (.of_follow h)

theorem Follows.follow (h : Follows t followLast links loc names reached) :
    follow t followLast links loc names = .ok reached := by
  induction h with
  | done hd =>
    unfold Files.follow
    rw [hd.descend]
  | link hd _ ih =>
    unfold Files.follow
    rw [hd.descend]
    exact ih

/-- **The ways that lead somewhere, link by link.** -/
theorem follows_iff :
    Follows t followLast links loc names reached ↔
      follow t followLast links loc names = .ok reached :=
  ⟨Follows.follow, Follows.of_follow⟩

theorem directory_of_follow (h : follow t followLast links loc (name :: rest) = .ok reached) :
    (t.get? loc).any Node.isDirectory = true := by
  unfold follow at h
  cases hd : descend t followLast loc (name :: rest) with
  | error e => rw [hd] at h; cases h
  | ok stop => exact directory_of_descend hd

/-- A dot on the way changes nothing. -/
theorem follow_dot (hdir : (t.get? loc).any Node.isDirectory = true) :
    follow t followLast links loc ("." :: rest) = follow t followLast links loc rest := by
  unfold follow
  rw [descend_dot hdir]

/-- A dot leads to the directory where it is followed. -/
theorem of_follow_dot (h : follow t followLast links loc ["."] = .ok reached) :
    reached = loc ∧ (t.get? loc).any Node.isDirectory = true := by
  have hdir := directory_of_follow h
  rw [follow_dot hdir, ← follows_iff] at h
  cases h with
  | done hd =>
    cases hd
    exact ⟨rfl, hdir⟩
  | link hd _ => cases hd

/-! ## 4. Paths lead the same way -/

/-- A name that is looked up in a directory can be looked up there in any tree with the directory. -/
theorem LooksUp.again (h : LooksUp t loc name) (hdir : (t'.get? loc).any Node.isDirectory = true) :
    LooksUp t' loc name := ⟨hdir, h.dot, h.up, h.fits⟩

theorem LooksUp.keeps (h : t.Keeps t') (hlook : LooksUp t loc name) : LooksUp t' loc name :=
  hlook.again (h.isDirectory hlook.directory)

theorem Passes.keeps (h : t.Keeps t') (hpass : Passes t loc name next) :
    Passes t' loc name next := by
  cases hpass with
  | dot hdir => exact .dot (h.isDirectory hdir)
  | up hdir => exact .up (h.isDirectory hdir)
  | down hlook hdir => exact .down (hlook.keeps h) (h.isDirectory hdir)

theorem Descends.keeps (h : t.Keeps t') (hd : Descends t followLast loc names stop) :
    Descends t' followLast loc names stop := by
  induction hd with
  | nil loc => exact .nil loc
  | pass hpass _ ih => exact .pass (hpass.keeps h) ih
  | last hlook hno =>
    exact .last (hlook.keeps h) fun hfollow target hn => hno hfollow target ((h.link _ target).mpr hn)
  | link hlook hn hon => exact .link (hlook.keeps h) ((h.link _ _).mp hn) hon

/-- **A path leads where it led** as long as the directories and links on the way are there. -/
theorem follow_keeps (h : t.Keeps t') (hf : follow t followLast links loc names = .ok reached) :
    follow t' followLast links loc names = .ok reached := by
  rw [← follows_iff] at hf ⊢
  induction hf with
  | done hd => exact .done (hd.keeps h)
  | link hd _ ih => exact .link (hd.keeps h) ih

/-! ## 5. The last names of a path -/

/-- A walk along names and more names comes to the end of the first ones, or to a link on the way
there. -/
theorem Descends.of_append (hmore : more ≠ []) : ∀ {names : List String} {loc : Location},
    Descends t followLast loc (names ++ more) stop →
      (∃ d, Descends t true loc names (.done d) ∧ Descends t followLast d more stop) ∨
      ∃ directory target rest, Descends t true loc names (.link directory target rest) ∧
        stop = .link directory target (rest ++ more)
  | [], loc, hd => .inl ⟨loc, .nil loc, hd⟩
  | name :: rest, loc, hd => by
    rw [List.cons_append] at hd
    generalize hall : rest ++ more = all at hd
    cases hd with
    | pass hpass hon =>
      rw [← hall] at hon
      rcases of_append hmore hon with ⟨d, hd, hrest⟩ | ⟨directory, target, left, hd, rfl⟩
      · exact .inl ⟨d, .pass hpass hd, hrest⟩
      · exact .inr ⟨directory, target, left, .pass hpass hd, rfl⟩
    | last => exact absurd (List.append_eq_nil_iff.mp hall).2 hmore
    | link hlook hn _ =>
      rw [← hall]
      exact .inr ⟨loc, _, rest, .link hlook hn (.inr rfl), rfl⟩

theorem Follows.of_append (hmore : more ≠ [])
    (hf : Follows t followLast links loc (names ++ more) reached) :
    ∃ d left, Follows t true links loc names d ∧ Follows t followLast left d more reached := by
  generalize hall : names ++ more = all at hf
  induction hf generalizing names with
  | @done links loc all reached hd =>
    rw [← hall] at hd
    rcases hd.of_append hmore with ⟨d, hnames, hrest⟩ | ⟨_, _, _, -, hstop⟩
    · exact ⟨d, links, .done hnames, .done hrest⟩
    · cases hstop
  | @link links loc all directory target left reached hd hon ih =>
    rw [← hall] at hd
    rcases hd.of_append hmore with ⟨d, hnames, hrest⟩ | ⟨_, _, rest, hnames, hstop⟩
    · exact ⟨d, links + 1, .done hnames, .link hrest hon⟩
    · cases hstop
      obtain ⟨d, fewer, hd', hrest⟩ := ih (List.append_assoc _ _ _)
      exact ⟨d, fewer, .link hnames hd', hrest⟩

/-- **A path with more names leads to where it leads without them, and on from there.** -/
theorem follow_append (hmore : more ≠ [])
    (hf : follow t followLast links loc (names ++ more) = .ok reached) :
    ∃ d left, follow t true links loc names = .ok d ∧
      follow t followLast left d more = .ok reached := by
  obtain ⟨d, left, hd, hrest⟩ := (follows_iff.mpr hf).of_append hmore
  exact ⟨d, left, hd.follow, hrest.follow⟩

/-- A last name that is followed to no link leads to its place in the directory. -/
theorem follow_last (hf : follow t followLast links loc [name] = .ok reached) (hdot : name ≠ ".")
    (hup : name ≠ "..")
    (hlink : followLast = true → ∀ target, t.get? (loc ++ [name]) ≠ some (.link target)) :
    reached = loc ++ [name] ∧ (t.get? loc).any Node.isDirectory = true := by
  refine ⟨?_, directory_of_follow hf⟩
  cases follows_iff.mpr hf with
  | done hd =>
    cases hd with
    | last => rfl
    | pass hpass hon =>
      cases hon
      cases hpass with
      | dot => exact absurd rfl hdot
      | up => exact absurd rfl hup
      | down => rfl
  | link hd _ =>
    cases hd with
    | pass _ hon => cases hon
    | link _ hn hon => exact absurd hn (hlink (hon.resolve_left (absurd rfl)) _)

/-- What a path leads through on its way is a directory or a link. -/
theorem passed_of_follow (hf : follow t followLast links loc (name :: rest) = .ok reached)
    (hdot : name ≠ ".") (hup : name ≠ "..") (hrest : rest ≠ []) :
    (t.get? (loc ++ [name])).any Node.isDirectory = true ∨
      ∃ target, t.get? (loc ++ [name]) = some (.link target) := by
  obtain ⟨stop, hd⟩ : ∃ stop, Descends t followLast loc (name :: rest) stop := by
    cases follows_iff.mpr hf with
    | done hd => exact ⟨_, hd⟩
    | link hd _ => exact ⟨_, hd⟩
  cases hd with
  | pass hpass _ =>
    cases hpass with
    | dot => exact absurd rfl hdot
    | up => exact absurd rfl hup
    | down _ hdir => exact .inl hdir
  | last => exact absurd rfl hrest
  | link _ hn _ => exact .inr ⟨_, hn⟩

/-- What a walk that stopped comes to along more names: it goes on from a location, and has them left
behind a link. -/
def Stop.onward (t : Tree) (followLast : Bool) (more : List String) : Stop → Except Errno Stop
  | .done d => descend t followLast d more
  | .link directory target rest => .ok (.link directory target (rest ++ more))

/-- A walk goes on along more names, if it came to a directory or a link. -/
theorem Descends.append (hmore : more ≠ []) (hd : Descends t true loc names stop)
    (hend : ∀ d, stop = .done d → (t.get? d).any Node.isDirectory = true) :
    Files.descend t followLast loc (names ++ more) = stop.onward t followLast more := by
  induction hd with
  | nil loc => rfl
  | pass hpass _ ih => rw [List.cons_append, hpass.descend, ih hend]
  | last hlook _ => exact (Passes.down hlook (hend _ rfl)).descend
  | @link loc name target rest hlook hn _ =>
    have hleft : rest ++ more ≠ [] := fun he => hmore (List.append_eq_nil_iff.mp he).2
    exact (Descends.link hlook hn (.inl hleft)).descend

/-- **A path to a directory with more names leads on from the directory.** -/
theorem follow_concat (hmore : more ≠ []) (hf : follow t true links loc names = .ok reached)
    (hdir : (t.get? reached).any Node.isDirectory = true) :
    ∃ left, follow t followLast links loc (names ++ more) =
      follow t followLast left reached more := by
  induction follows_iff.mpr hf with
  | @done links loc names reached hd =>
    refine ⟨links, ?_⟩
    unfold follow
    rw [hd.append hmore fun _ he => by cases he; exact hdir, Stop.onward]
  | @link links loc names directory target rest reached hd hon ih =>
    obtain ⟨left, hleft⟩ := ih hon.follow hdir
    refine ⟨left, ?_⟩
    rw [← hleft, List.append_assoc, follow.eq_def]
    dsimp only
    rw [hd.append hmore fun _ he => by cases he]
    rfl

/-- A name that is followed to no link leads to its place in the directory, unless it is too
long. -/
theorem follow_name (hdot : name ≠ ".") (hup : name ≠ "..")
    (hdir : (t.get? loc).any Node.isDirectory = true)
    (hlink : followLast = true → ∀ target, t.get? (loc ++ [name]) ≠ some (.link target)) :
    follow t followLast links loc [name] =
      if maxNameBytes < name.utf8ByteSize then .error .nameTooLong else .ok (loc ++ [name]) := by
  by_cases hlong : maxNameBytes < name.utf8ByteSize
  · rw [if_pos hlong]
    unfold follow
    simp [descend, hdir, hdot, hup, hlong]
  · rw [if_neg hlong]
    exact (Follows.done (.last ⟨hdir, hdot, hup, hlong⟩ hlink)).follow

/-- A walk that does not end at a link is the same whether a last link is followed or not. -/
theorem Descends.followed (hd : Descends t false loc names stop)
    (hend : ∀ reached target, stop = .done reached → t.get? reached ≠ some (.link target)) :
    Descends t true loc names stop := by
  induction hd with
  | nil loc => exact .nil loc
  | pass hpass _ ih => exact .pass hpass (ih hend)
  | last hlook _ => exact .last hlook fun _ target => hend _ target rfl
  | link hlook hn _ => exact .link hlook hn (.inr rfl)

/-- A path that leads to no link leads there whether a last link is followed or not. -/
theorem follow_true (hlink : ∀ target, t.get? reached ≠ some (.link target))
    (hf : follow t false links loc names = .ok reached) :
    follow t true links loc names = .ok reached := by
  rw [← follows_iff] at hf ⊢
  induction hf with
  | done hd => exact .done (hd.followed fun _ target he => by cases he; exact hlink target)
  | link hd _ ih => exact .link (hd.followed fun _ _ he => by cases he) (ih hlink)

/-- A walk that would follow a last link is the same if that is not followed, unless it ends at the
link. -/
theorem Descends.unfollowed (hd : Descends t true loc names stop) :
    Descends t false loc names stop ∨ ∃ reached target,
      Descends t false loc names (.done reached) ∧ t.get? reached = some (.link target) := by
  induction hd with
  | nil loc => exact .inl (.nil loc)
  | pass hpass _ ih =>
    rcases ih with hsame | ⟨reached, target, hreached, hn⟩
    · exact .inl (.pass hpass hsame)
    · exact .inr ⟨reached, target, .pass hpass hreached, hn⟩
  | last hlook _ => exact .inl (.last hlook nofun)
  | @link loc name target rest hlook hn _ =>
    cases rest with
    | nil => exact .inr ⟨loc ++ [name], target, .last hlook nofun, hn⟩
    | cons next more => exact .inl (.link hlook hn (.inl (List.cons_ne_nil next more)))

/-- A path that leads somewhere leads there, or to a link, if a last link is not followed. -/
theorem follow_false (hf : follow t true links loc names = .ok reached) :
    ∃ place, follow t false links loc names = .ok place ∧
      (place = reached ∨ ∃ target, t.get? place = some (.link target)) := by
  induction follows_iff.mpr hf with
  | @done links loc names reached hd =>
    rcases hd.unfollowed with hsame | ⟨place, target, hplace, hlink⟩
    · exact ⟨reached, (Follows.done hsame).follow, .inl rfl⟩
    · exact ⟨place, (Follows.done hplace).follow, .inr ⟨target, hlink⟩⟩
  | @link links loc names directory target rest reached hd hon ih =>
    rcases hd.unfollowed with hsame | ⟨place, other, hplace, hlink⟩
    · obtain ⟨place, hplace, hends⟩ := ih hon.follow
      exact ⟨place, (Follows.link hsame (.of_follow hplace)).follow, hends⟩
    · exact ⟨place, (Follows.done hplace).follow, .inr ⟨other, hlink⟩⟩

/-! ## 6. The first names of a path -/

/-- What is above a directory is a directory. -/
theorem Tree.WellFormed.directory_before (h : t.WellFormed) {loc rest : Location}
    (hdir : (t.get? (loc ++ rest)).any Node.isDirectory = true) :
    (t.get? loc).any Node.isDirectory = true := by
  by_cases hrest : rest = []
  · simpa [hrest] using hdir
  · obtain ⟨mode, hmode⟩ := Tree.directory_of_isDirectory hdir
    exact h.directory_above hrest (by rw [hmode]; rfl)

/-- The names on the way to a directory are plain, and none leads up. -/
theorem Tree.WellFormed.plain_before (h : t.WellFormed) {loc : Location}
    (hdir : (t.get? loc).any Node.isDirectory = true) :
    ∀ name ∈ loc, Path.IsPlain name ∧ name ≠ ".." := by
  intro name hmem
  obtain ⟨front, rest, rfl⟩ := List.append_of_mem hmem
  rw [List.append_cons] at hdir
  obtain ⟨mode, hmode⟩ := Tree.directory_of_isDirectory (h.directory_before hdir)
  exact h.plain front name (by rw [hmode]; rfl)

/-- A walk along the names of a directory comes to that directory. -/
theorem descend_along (h : t.WellFormed) : ∀ (names : List String) (loc : Location),
    (t.get? (loc ++ names)).any Node.isDirectory = true →
      descend t followLast loc (names ++ more) = .ok stop →
        descend t followLast (loc ++ names) more = .ok stop
  | [], loc, _, hd => by
    rw [List.append_nil]
    exact hd
  | name :: rest, loc, hdir, hd => by
    obtain ⟨hplain, hup⟩ := h.plain_before hdir name (by simp)
    rw [List.append_cons] at hdir ⊢
    rw [List.cons_append] at hd
    have hlook := looksUp_of_descend hd hplain.2.1 hup
    rw [(Passes.down hlook (h.directory_before hdir)).descend] at hd
    exact descend_along h rest _ hdir hd

/-- **What leads on from a directory leads there from above as well**, if it does with the names of
the directory before it. -/
theorem follow_along (h : t.WellFormed) (hdir : (t.get? names).any Node.isDirectory = true)
    (hf : follow t followLast links [] (names ++ more) = .ok reached) :
    follow t followLast links names more = .ok reached := by
  rw [← follows_iff] at hf ⊢
  cases hf with
  | done hd => exact .done (.of_descend (descend_along h names [] hdir hd.descend))
  | link hd hon => exact .link (.of_descend (descend_along h names [] hdir hd.descend)) hon

/-! ## 7. Paths without links -/

theorem extended_plain (path : Path) {name : String} (h : Path.IsPlain name) :
    extended path [name] = ⟨path.anchor, path.parts ++ [name]⟩ := by
  have hne : (name != "") = true := bne_iff_ne.mpr h.1
  simp [extended, hne]

/-- Where no link is on the way, replacing links leaves the path alone. -/
theorem replaceLinks_of_no_link (d : Disk) (depth : Nat) (replaced : Replaced) :
    ∀ {names : List String} {path : Path}, (∀ name ∈ names, Path.IsPlain name ∧ name ≠ "..") →
      (∀ front, front ≠ [] → front <+: names →
        linkAt? d ⟨path.anchor, path.parts ++ front⟩ = none) →
        (replaceLinks d depth replaced path names).path = ⟨path.anchor, path.parts ++ names⟩
  | [], path, _, _ => by simp [replaceLinks]
  | name :: rest, path, hplain, hlinks => by
    obtain ⟨hname, hup⟩ := hplain name List.mem_cons_self
    have hdot : ¬ (name = "" || name = ".") = true := by
      simp [hname.1, hname.2.1]
    have hhere : linkAt? d ⟨path.anchor, path.parts ++ [name]⟩ = none :=
      hlinks [name] (by simp) ⟨rest, rfl⟩
    have hrest : ∀ front, front ≠ [] → front <+: rest →
        linkAt? d ⟨path.anchor, (path.parts ++ [name]) ++ front⟩ = none := by
      intro front _ hfront
      have h := hlinks (name :: front) (by simp) (List.cons_prefix_cons.mpr ⟨rfl, hfront⟩)
      simpa using h
    have ih : (replaceLinks d depth replaced ⟨path.anchor, path.parts ++ [name]⟩ rest).path =
        ⟨path.anchor, (path.parts ++ [name]) ++ rest⟩ :=
      replaceLinks_of_no_link d depth replaced
        (fun n hn => hplain n (List.mem_cons_of_mem _ hn)) hrest
    rw [replaceLinks, if_neg hdot, if_neg hup]
    simp only [extended_plain path hname, hhere, ih]
    simp

theorem collapse_plain {names : List String} (h : ∀ name ∈ names, Path.IsPlain name ∧ name ≠ "..") :
    Path.collapse names = names := by
  have hfold : ∀ (rest above : List String), (∀ name ∈ rest, Path.IsPlain name ∧ name ≠ "..") →
      rest.foldl Path.collapseStep above = rest.reverse ++ above := by
    intro rest
    induction rest with
    | nil => exact fun _ _ => rfl
    | cons name rest ih =>
      intro above hrest
      obtain ⟨hname, hup⟩ := hrest name List.mem_cons_self
      rw [List.foldl_cons, ih _ fun n hn => hrest n (List.mem_cons_of_mem _ hn)]
      simp [Path.collapseStep, hup, hname.2.1]
  unfold Path.collapse
  rw [hfold names [] h]
  simp

/-- **A path with no link on the way is link-free as it is.** -/
theorem Disk.resolve_of_no_link {d : Disk} {names : List String}
    (hplain : ∀ name ∈ names, Path.IsPlain name ∧ name ≠ "..")
    (hfault : Disk.pathFault? (Path.text ⟨.root, names⟩) = none)
    (hlinks : ∀ front, front ≠ [] → front <+: names → linkAt? d ⟨.root, front⟩ = none)
    (hstat : d.stat (Path.text ⟨.root, names⟩) ≠ .error .tooManyLinks) :
    d.resolve ⟨.root, names⟩ = .ok ⟨.root, names⟩ := by
  have hreal : d.realLocation ⟨.root, names⟩ = names := by
    have hpath : (replaceLinks d maxReplacements [] ⟨.root, []⟩ names).path = ⟨.root, names⟩ :=
      replaceLinks_of_no_link d _ _ hplain hlinks
    show d.locationOf (replaceLinks d maxReplacements [] ⟨.root, []⟩ names).path = names
    rw [hpath]
    exact collapse_plain hplain
  exact Disk.resolve_ok_iff.mpr ⟨hfault, by rw [hreal], hstat⟩

/-- A name in the root of the disk that is no link is link-free as it is. -/
theorem Disk.resolve_name {d : Disk} {name : String}
    (hplain : Path.IsPlain name ∧ name ≠ "..")
    (hfault : Disk.pathFault? (Path.text ⟨.root, [name]⟩) = none)
    (hlink : linkAt? d ⟨.root, [name]⟩ = none)
    (hthere : (d.stat (Path.text ⟨.root, [name]⟩)).toBool = true) :
    d.resolve ⟨.root, [name]⟩ = .ok ⟨.root, [name]⟩ := by
  refine Disk.resolve_of_no_link ?_ hfault ?_ fun hstat => ?_
  · intro n hn
    rw [List.mem_singleton.mp hn]
    exact hplain
  · intro front hne hfront
    have hwhole : front = [name] := by
      rcases List.prefix_cons_iff.mp hfront with h | ⟨rest, rfl, hrest⟩
      · exact absurd h hne
      · rw [List.prefix_nil.mp hrest]
    rw [hwhole, hlink]
  · rw [hstat] at hthere
    cases hthere

end Dissect.Files
