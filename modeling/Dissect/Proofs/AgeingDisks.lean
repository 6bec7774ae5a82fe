/-
# Paths on a disk that ages

A disk ages when directories vanish for good: no link comes, goes or changes, and where a directory
vanishes no other node appears (`Tree.Ages`).  Other places may change as they like.  A path that led
to a place when the disk was younger then leads there still, or nowhere any more
(`Disk.Led.locate`); and once it leads nowhere it never leads anywhere again (`Disk.Led.lost`).

Both come from one lemma about the directories that the path passes, its way (`follow_way`): the path
leads to its place exactly as long as they are all there.
-/
import Dissect.Proofs.FileOperations

namespace Dissect.Files

/-! ## 1. Ageing -/

namespace Tree

variable {spent spent' : Location → Prop} {t t' t'' : Tree} {loc : Location}

/-- The later tree has the same links, and every directory or, at a place that is spent, nothing. -/
structure Ages (spent : Location → Prop) (t t' : Tree) : Prop where
  link : ∀ l target, t'.get? l = some (.link target) ↔ t.get? l = some (.link target)
  directory : ∀ l, (t.get? l).any Node.isDirectory = true →
    (t'.get? l).any Node.isDirectory = true ∨ t'.get? l = none ∧ spent l

/-- Nothing appears where a place is spent. -/
def Rests (spent : Location → Prop) (t t' : Tree) : Prop :=
  ∀ l, spent l → t.get? l = none → t'.get? l = none

theorem Ages.refl (spent : Location → Prop) (t : Tree) : Ages spent t t where
  link := fun _ _ => Iff.rfl
  directory := fun _ hdir => .inl hdir

theorem Ages.mono (h : Ages spent t t') (hmore : ∀ l, spent l → spent' l) : Ages spent' t t' where
  link := h.link
  directory := fun l hdir => (h.directory l hdir).imp_right (And.imp_right (hmore l))

/-- A tree that has aged ages on, if nothing appears at the places that are spent. -/
theorem Ages.trans (h : Ages spent t t') (h' : Ages spent' t' t'') (hrests : Rests spent t' t'')
    (hmore : ∀ l, spent l → spent' l) : Ages spent' t t'' where
  link := fun l target => (h'.link l target).trans (h.link l target)
  directory := fun l hdir => by
    rcases h.directory l hdir with hstill | ⟨hnone, hspent⟩
    · exact h'.directory l hstill
    · exact .inr ⟨hrests l hspent hnone, hmore l hspent⟩

/-- All directories of a way are there. -/
def Open (t : Tree) (way : List Location) : Bool :=
  way.all fun l => (t.get? l).any Node.isDirectory

@[simp] theorem open_nil (t : Tree) : t.Open [] = true := rfl

@[simp] theorem open_cons (t : Tree) (l : Location) (way : List Location) :
    t.Open (l :: way) = ((t.get? l).any Node.isDirectory && t.Open way) := rfl

@[simp] theorem open_append (t : Tree) (way more : List Location) :
    t.Open (way ++ more) = (t.Open way && t.Open more) := List.all_append

/-- A way that is closed stays closed. -/
theorem Ages.closed (h : Ages spent t t') (hrests : Rests spent t' t'') {way : List Location}
    (hway : t.Open way = true) (hclosed : t'.Open way = false) : t''.Open way = false := by
  obtain ⟨l, hl, hgone⟩ := List.all_eq_false.mp hclosed
  have hdir := List.all_eq_true.mp hway l hl
  rcases h.directory l hdir with hstill | ⟨hnone, hspent⟩
  · exact absurd hstill hgone
  · refine List.all_eq_false.mpr ⟨l, hl, ?_⟩
    rw [hrests l hspent hnone]
    simp

/-- The root and what is above a directory are directories. -/
theorem WellFormed.directory_up (h : t.WellFormed)
    (hdir : (t.get? loc).any Node.isDirectory = true) :
    (t.get? loc.dropLast).any Node.isDirectory = true := by
  rcases List.eq_nil_or_concat loc with rfl | ⟨front, last, rfl⟩
  · rfl
  · rw [List.concat_eq_append] at hdir ⊢
    rw [List.dropLast_concat]
    refine h.grounded front last ?_
    cases hn : t.get? (front ++ [last]) with
    | none =>
      rw [hn] at hdir
      cases hdir
    | some node => rfl

/-- A node of a tree that is not a link is none later. -/
theorem Ages.no_link (h : Ages spent t t') (hlink : ∀ target, t.get? loc ≠ some (.link target)) :
    ∀ target, t'.get? loc ≠ some (.link target) :=
  fun target hn => hlink target ((h.link loc target).mp hn)

/-- The trees are the same except at one place, where neither has a link. -/
structure ChangesAt (loc : Location) (t t' : Tree) : Prop where
  others : ∀ l, l ≠ loc → t'.get? l = t.get? l
  before : ∀ target, t.get? loc ≠ some (.link target)
  after : ∀ target, t'.get? loc ≠ some (.link target)

namespace ChangesAt

/-- A tree ages by a change unless that replaces a directory, or removes one from a place that is
not spent. -/
theorem ages (h : ChangesAt loc t t')
    (hdir : (t.get? loc).any Node.isDirectory = true → t'.get? loc = none ∧ spent loc) :
    t.Ages spent t' where
  link := fun l target => by
    by_cases hl : l = loc
    · subst hl
      exact iff_of_false (h.after target) (h.before target)
    · rw [h.others l hl]
  directory := fun l hthere => by
    by_cases hl : l = loc
    · subst hl
      exact .inr (hdir hthere)
    · rw [h.others l hl]
      exact .inl hthere

theorem rests (h : ChangesAt loc t t')
    (hspent : spent loc → t.get? loc = none → t'.get? loc = none) : Rests spent t t' := by
  intro l hl hnone
  by_cases he : l = loc
  · subst he
    exact hspent hl hnone
  · rw [h.others l he]
    exact hnone

/-- A proper tree stays one by a change to a place in a directory, unless what is below the place
loses its directory. -/
theorem wellFormed (h : ChangesAt loc t t') (hw : t.WellFormed)
    (hplace : ∀ base name, loc = base ++ [name] → (t'.get? loc).isSome = true →
      (Path.IsPlain name ∧ name ≠ "..") ∧ (t.get? base).any Node.isDirectory = true)
    (hbelow : ∀ name, (t.get? (loc ++ [name])).isSome = true →
      (t'.get? loc).any Node.isDirectory = true) : t'.WellFormed := by
  refine ⟨fun l name hthere => ?_, fun l name hthere => ?_⟩
  · by_cases hl : l ++ [name] = loc
    · rw [hl] at hthere
      exact (hplace l name hl.symm hthere).1
    · rw [h.others _ hl] at hthere
      exact hw.plain l name hthere
  · by_cases hl : l ++ [name] = loc
    · rw [hl] at hthere
      have hne : l ≠ loc := by
        rintro rfl
        simp at hl
      rw [h.others l hne]
      exact (hplace l name hl.symm hthere).2
    · rw [h.others _ hl] at hthere
      by_cases hup : l = loc
      · subst hup
        exact hbelow name hthere
      · rw [h.others l hup]
        exact hw.grounded l name hthere

end ChangesAt

end Tree

/-! ## 2. The way of a path -/

variable {spent : Location → Prop} {t t' younger : Tree} {followLast : Bool}
  {loc next reached : Location} {name : String} {names rest : List String} {stop : Stop}
  {links : Nat}

/-- What a walk that stopped in a younger tree comes to, given the directories that it passed. -/
structure Stop.On (stop : Stop) (way : List Location) (t : Tree) (followLast : Bool)
    (loc : Location) (names : List String) : Prop where
  stops : descend t followLast loc names = if t.Open way then .ok stop else .error .noEntry
  stands : ∀ directory target rest, t.Open way = true → stop = .link directory target rest →
    (t.get? directory).any Node.isDirectory = true

theorem Stop.On.before {way : List Location} (h : stop.On way t followLast next rest)
    (hpass : Passes t loc name next) : stop.On way t followLast loc (name :: rest) where
  stops := hpass.descend.trans h.stops
  stands := h.stands

/-- A walk that passed a directory stops where it did after it, or nowhere if the directory is
gone. -/
theorem Stop.On.below {way : List Location} (hlook : LooksUp t loc name) (hrest : rest ≠ [])
    (hthere : (t.get? (loc ++ [name])).any Node.isDirectory = true →
      stop.On way t followLast (loc ++ [name]) rest)
    (hgone : (t.get? (loc ++ [name])).any Node.isDirectory = true ∨ t.get? (loc ++ [name]) = none) :
    stop.On ((loc ++ [name]) :: way) t followLast loc (name :: rest) := by
  rcases hgone with hstill | hnone
  · refine ⟨?_, fun directory target left hopen => ?_⟩
    · simpa [hstill] using ((hthere hstill).before (.down hlook hstill)).stops
    · rw [Tree.open_cons, Bool.and_eq_true] at hopen
      exact (hthere hstill).stands directory target left hopen.2
  · refine ⟨?_, fun directory target left hopen => ?_⟩
    · rw [hlook.descend, hnone]
      simp [hnone, hrest]
    · simp [hnone] at hopen

/-- The younger tree's walk passes directories, and as long as they are there it stops where it
did. -/
def Stop.Lasts (stop : Stop) (spent : Location → Prop) (younger : Tree) (loc : Location)
    (names : List String) : Prop :=
  ∃ way, younger.Open way = true ∧ ∀ (t : Tree) (followLast : Bool), t.WellFormed →
    younger.Ages spent t → (t.get? loc).any Node.isDirectory = true →
      stop.On way t followLast loc names

/-- A last name that is no link is reached without passing it. -/
theorem LooksUp.lasts (hlook : LooksUp younger loc name)
    (hno : ∀ target, younger.get? (loc ++ [name]) ≠ some (.link target)) :
    (Stop.done (loc ++ [name])).Lasts spent younger loc [name] := by
  refine ⟨[], rfl, fun t followLast _ hages hdir => ⟨?_, fun _ _ _ _ he => by cases he⟩⟩
  exact (Descends.last (hlook.again hdir) fun _ => hages.no_link hno).descend

/-- **A walk stops where it stopped as long as the directories it passed are there.**  The induction
is on the walk. -/
theorem Descends.lasts (h : Descends younger false loc names stop)
    (hend : ∀ reached target, stop = .done reached → younger.get? reached ≠ some (.link target)) :
    stop.Lasts spent younger loc names := by
  induction h with
  | nil loc => exact ⟨[], rfl, fun _ _ _ _ _ => ⟨rfl, fun _ _ _ _ he => by cases he⟩⟩
  | @pass loc next name rest stop hpass hon ih =>
    obtain ⟨way, hway, hlasts⟩ := ih hend
    cases hpass with
    | dot =>
      exact ⟨way, hway, fun t followLast hw hages hdir =>
        (hlasts t followLast hw hages hdir).before (.dot hdir)⟩
    | up =>
      exact ⟨way, hway, fun t followLast hw hages hdir =>
        (hlasts t followLast hw hages (hw.directory_up hdir)).before (.up hdir)⟩
    | down hlook hpassed =>
      by_cases hrest : rest = []
      · subst hrest
        cases hon
        exact hlook.lasts fun target => hend _ target rfl
      · refine ⟨(loc ++ [name]) :: way, by simp [hpassed, hway], fun t followLast hw hages hdir => ?_⟩
        exact .below (hlook.again hdir) hrest (hlasts t followLast hw hages)
          ((hages.directory _ hpassed).imp_right And.left)
  | last hlook _ => exact hlook.lasts fun target => hend _ target rfl
  | link hlook hn hon =>
    refine ⟨[], rfl, fun t followLast _ hages hdir => ⟨?_, ?_⟩⟩
    · refine (Descends.link (hlook.again hdir) ((hages.link _ _).mpr hn) (.inl ?_)).descend
      exact hon.resolve_right (by decide)
    · intro directory _ _ _ he
      cases he
      exact hdir

/-- **Names lead where they led as long as the directories on the way are there, and nowhere
else.** -/
theorem follow_way (hend : ∀ target, younger.get? reached ≠ some (.link target))
    (hf : follow younger false links loc names = .ok reached) :
    ∃ way, younger.Open way = true ∧ ∀ (t : Tree) (followLast : Bool), t.WellFormed →
      younger.Ages spent t → (t.get? loc).any Node.isDirectory = true →
        follow t followLast links loc names = if t.Open way then .ok reached else .error .noEntry := by
  induction follows_iff.mpr hf with
  | done hd =>
    obtain ⟨way, hway, hon⟩ := hd.lasts (fun _ target he => by cases he; exact hend target)
    refine ⟨way, hway, fun t followLast hw hages hdir => ?_⟩
    unfold follow
    rw [(hon t followLast hw hages hdir).stops]
    cases t.Open way <;> rfl
  | @link links loc names directory target rest reached hd hrest ih =>
    obtain ⟨first, hfirst, hon⟩ := hd.lasts (fun _ _ he => by cases he)
    obtain ⟨second, hsecond, hleads⟩ := ih hend hrest.follow
    refine ⟨first ++ second, by simp [hfirst, hsecond], fun t followLast hw hages hdir => ?_⟩
    obtain ⟨hstops, hstands⟩ := hon t followLast hw hages hdir
    unfold follow
    rw [hstops]
    cases hopen : t.Open first with
    | false => simp [hopen]
    | true =>
      have hstart : (t.get? (rawStart directory target)).any Node.isDirectory = true := by
        unfold rawStart
        split
        · rfl
        · exact hstands directory target rest hopen rfl
      simpa [hopen] using hleads t followLast hw hages hstart

/-! ## 3. Paths that led somewhere -/

namespace Disk

/-- The absolute path led to the place, which is no link, when the disk was younger. -/
structure Led (spent : Location → Prop) (d : Disk) (path : String) (loc : Location) : Prop where
  absolute : Text.startsWith path "/" = true
  younger : ∃ younger : Tree, younger.Ages spent d.tree ∧
    (∀ target, younger.get? loc ≠ some (.link target)) ∧
    ({ d with tree := younger } : Disk).locate false path = .ok loc

namespace Led

variable {spent' : Location → Prop} {d d' : Disk} {path : String} {loc : Location}

theorem of_locate (spent : Location → Prop) (habsolute : Text.startsWith path "/" = true)
    (hl : d.locate false path = .ok loc) (hlink : ∀ target, d.tree.get? loc ≠ some (.link target)) :
    d.Led spent path loc where
  absolute := habsolute
  younger := ⟨d.tree, Tree.Ages.refl spent d.tree, hlink, hl⟩

/-- Where a path starts that starts at the root. -/
theorem locate_absolute (habsolute : Text.startsWith path "/" = true) (d : Disk)
    (followLast : Bool) :
    d.locate followLast path =
      if path = "" then .error .noEntry
      else if maxPathBytes ≤ path.utf8ByteSize then .error .nameTooLong
      else follow d.tree followLast maxLinks [] (rawNames path) := by
  unfold locate rawStart
  rw [if_pos habsolute]

/-- A path that led to a place leads there while its way is open, and only then. -/
theorem way (h : d.Led spent path loc) (spent' : Location → Prop) :
    ∃ way, ∃ younger : Tree, younger.Open way = true ∧ younger.Ages spent d.tree ∧
      ∀ (later : Disk) (followLast : Bool), later.tree.WellFormed →
        younger.Ages spent' later.tree → later.locate followLast path =
          if later.tree.Open way then .ok loc else .error .noEntry := by
  obtain ⟨habsolute, younger, hages, hlink, hl⟩ := h
  obtain ⟨hne, hshort, hf⟩ := locate_ok hl
  have hstart : rawStart d.cwd path = [] := if_pos habsolute
  obtain ⟨way, hway, hlater⟩ : ∃ way, younger.Open way = true ∧ ∀ (t : Tree) (followLast : Bool),
      t.WellFormed → younger.Ages spent' t → (t.get? []).any Node.isDirectory = true → _ :=
    follow_way hlink (hstart ▸ hf)
  refine ⟨way, younger, hway, hages, fun later followLast hw hages' => ?_⟩
  rw [locate_absolute habsolute, if_neg hne, if_neg (Nat.not_le.mpr hshort)]
  exact hlater later.tree followLast hw hages' rfl

/-- **It leads there still, or nowhere any more**, whether a last link is followed or not. -/
theorem locate (h : d.Led spent path loc) (hw : d.tree.WellFormed) :
    (∀ followLast, d.locate followLast path = .ok loc) ∨
      ∀ followLast, d.locate followLast path = .error .noEntry := by
  obtain ⟨way, younger, -, hages, hlater⟩ := h.way spent
  cases hopen : d.tree.Open way with
  | true => exact .inl fun followLast => by rw [hlater d followLast hw hages, hopen]; rfl
  | false => exact .inr fun followLast => by rw [hlater d followLast hw hages, hopen]; rfl

variable (hages : d.tree.Ages spent' d'.tree) (hrests : Tree.Rests spent d.tree d'.tree)
  (hmore : ∀ l, spent l → spent' l)

include hages hrests hmore

/-- A path that led to a place led there when the disk has aged on. -/
theorem ages (h : d.Led spent path loc) : d'.Led spent' path loc where
  absolute := h.absolute
  younger := by
    obtain ⟨habsolute, younger, hyounger, hlink, hl⟩ := h
    refine ⟨younger, hyounger.trans hages hrests hmore, hlink, ?_⟩
    rw [locate_absolute habsolute] at hl ⊢
    exact hl

/-- **A path that leads nowhere any more leads nowhere later.** -/
theorem lost (h : d.Led spent path loc) (hw : d.tree.WellFormed) (hw' : d'.tree.WellFormed)
    (hlost : ∀ followLast, d.locate followLast path = .error .noEntry) :
    ∀ followLast, d'.locate followLast path = .error .noEntry := by
  obtain ⟨way, younger, hway, hyounger, hlater⟩ := h.way spent'
  have hclosed : d.tree.Open way = false := by
    have hnow := hlost false
    rw [hlater d false hw (hyounger.mono hmore)] at hnow
    cases hopen : d.tree.Open way with
    | false => rfl
    | true =>
      rw [hopen] at hnow
      cases hnow
  intro followLast
  rw [hlater d' followLast hw' (hyounger.trans hages hrests hmore),
    hyounger.closed hrests hway hclosed]
  rfl

end Led

end Disk

end Dissect.Files
