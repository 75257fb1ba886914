import Mathlib.Data.Finset.Basic
import Mikos.Ext4.Linear

/-!
# Directories of a volume

A forest of directories lies in the blocks of a volume: which inodes are directories,
which blocks they have and which records are in these.  The routines that look up,
enter and erase names read and change this forest and nothing else.
-/

namespace Mikos.Ext4
open Library Fs Function List

/-! ## Forests -/

/-- Which inodes are directories, the blocks of each and the records in the blocks. -/
structure Forest where
  directories : Finset Nat
  leaves : Nat → List Nat
  slots : Nat → List Slot

namespace Forest
variable (forest : Forest)

def IsLeaf (block : Nat) : Prop := ∃ directory ∈ forest.directories, block ∈ forest.leaves directory
deriving Decidable

/-- The names in a directory, in the order in which they are looked through. -/
def listing (directory : Nat) : List (Nat × Link) :=
  entriesIn forest.slots (forest.leaves directory)

/-- The forest lies in an image: every directory can be read and is mapped to its blocks,
whatever is in the blocks of directories; these are data blocks, no two directories
share one, and each is a chain of records; no directory has a name twice. -/
structure Holds (layout : Layout) (image : Bytes) : Prop where
  root : rootInode ∈ forest.directories
  directory : ∀ directory ∈ forest.directories, layout.HasInode directory ∧
    (layout.nodeAt image directory).Readable ∧
    (layout.nodeAt image directory).type = .directory ∧
    hasFlag (layout.nodeAt image directory).flags inodeInlineData = false
  size : ∀ directory ∈ forest.directories, (layout.nodeAt image directory).size =
    (forest.leaves directory).length * layout.blockSize ∧
      (forest.leaves directory).length < 2 ^ 32
  mapped : ∀ directory ∈ forest.directories, ∀ blocks : Nat → Bytes,
    (∀ block, ¬ forest.IsLeaf block → blocks block = window layout.toGeometry image block) →
    ∀ (index : Nat) (inside : index < (forest.leaves directory).length),
      mapOn layout.toGeometry blocks (layout.nodeAt image directory) index =
        .ok ⟨(forest.leaves directory)[index], false⟩
  data : ∀ block, forest.IsLeaf block → layout.IsData block
  distinct : ∀ directory ∈ forest.directories, (forest.leaves directory).Nodup
  apart : ∀ directory ∈ forest.directories, ∀ other ∈ forest.directories, directory ≠ other →
    (forest.leaves directory).Disjoint (forest.leaves other)
  chain : ∀ block, forest.IsLeaf block → Chain layout.toGeometry
    (window layout.toGeometry image block) layout.blockSize 0 (forest.slots block)
  closed : ∀ block, forest.IsLeaf block → ∀ link ∈ links (forest.slots block),
    (layout.nodeAt image link.inode).type = .directory → link.inode ∈ forest.directories
  names : ∀ directory ∈ forest.directories,
    ((forest.listing directory).map fun entry => entry.2.name).Nodup

/-- The driver reads every inode that a directory of the forest names: none of them is a
pipe, a socket or a device. -/
def Readable (layout : Layout) (image : Bytes) : Prop :=
  ∀ directory ∈ forest.directories, ∀ entry ∈ forest.listing directory,
    layout.ReadsInode image entry.2.inode

end Forest

/-- A node that was read of an inode, by whatever name. -/
def Layout.Represents (layout : Layout) (image : Bytes) (inode : Nat) (node : Node) : Prop :=
  ∃ place, node = { layout.nodeAt image inode with directoryEntryOffset := place }

namespace Layout.Represents
variable {layout : Layout} {image : Bytes} {inode : Nat} {node : Node}

theorem type (represents : layout.Represents image inode node) :
    node.type = (layout.nodeAt image inode).type := by
  obtain ⟨place, rfl⟩ := represents
  rfl

theorem inode_eq (represents : layout.Represents image inode node) : node.inode = inode := by
  obtain ⟨place, rfl⟩ := represents
  rfl

end Layout.Represents

/-! ## Paths -/

namespace Forest
variable (forest : Forest) (layout : Layout) (image : Bytes)

noncomputable def lookup (directory : Nat) (name : List UInt8) : Except Error Node :=
  layout.sought image name (forest.listing directory)

noncomputable def walk : Node → List (List UInt8) → Except Error Node
  | current, [] => .ok current
  | current, component :: rest =>
    if nameCapacity < component.length then .error .invalidArgument
    else if component = [dot] then walk current rest
    else if current.type ≠ .directory then .error .notDirectory
    else do
      let child ← forest.lookup layout image current.inode component
      walk child rest

noncomputable def lookupPath (path : List UInt8) : Except Error Node :=
  forest.walk layout image (layout.nodeAt image rootInode) (components path)

noncomputable def resolveParent (path : List UInt8) : Except Error (Node × List UInt8) :=
  let trimmed := path.rdropWhile (· = slash)
  let name := trimmed.rtakeWhile (· ≠ slash)
  let start := trimmed.length - name.length
  if nameCapacity < path.length ∨ name = [] ∨ 255 < name.length ∨ name = [dot] ∨
      name = [dot, dot] then
    .error .invalidArgument
  else if start ≤ 1 then
    .ok (layout.nodeAt image rootInode, name)
  else do
    let parent ← forest.lookupPath layout image ((path.take start).rdropWhile (· = slash))
    if parent.type = .directory then .ok (parent, name) else .error .notDirectory

noncomputable def requireAbsent (directory : Nat) (name : List UInt8) : Except Error Unit :=
  absence (forest.lookup layout image directory name)

/-- A node of the forest: a directory is one of its directories. -/
def Known (node : Node) : Prop :=
  ∃ inode, layout.Represents image inode node ∧
    ((layout.nodeAt image inode).type = .directory → inode ∈ forest.directories)

end Forest

section Paths
variable {layout : Layout} {forest : Forest} {volume : Volume} {directory : Nat} {node : Node}

theorem Forest.mem_listing : entry ∈ forest.listing directory ↔
      entry.1 ∈ forest.leaves directory ∧ entry.2 ∈ links (forest.slots entry.1) :=
  mem_entriesIn

theorem Forest.Known.of_type (known : forest.Known layout volume.image node)
    (isType : node.type = .directory) :
    node.inode ∈ forest.directories ∧ layout.Represents volume.image node.inode node := by
  obtain ⟨inode, represents, closed⟩ := known
  rw [represents.inode_eq]
  exact ⟨closed (represents.type ▸ isType), represents⟩

section
variable (holds : forest.Holds layout volume.image)
include holds

theorem Forest.Holds.linear (isDirectory : directory ∈ forest.directories)
    (represents : layout.Represents volume.image directory node) :
    layout.Linear volume.image node (forest.leaves directory) forest.slots := by
  obtain ⟨place, rfl⟩ := represents
  obtain ⟨-, -, type, plain⟩ := holds.directory directory isDirectory
  obtain ⟨size, few⟩ := holds.size directory isDirectory
  have isLeaf {block : Nat} (leaf : block ∈ forest.leaves directory) : forest.IsLeaf block :=
    ⟨directory, isDirectory, leaf⟩
  exact
    { type, plain, size, few
      mapped := fun blocks agree => holds.mapped directory isDirectory blocks fun block outside =>
        agree block fun leaf => outside (isLeaf leaf)
      data := fun block leaf => holds.data block (isLeaf leaf)
      distinct := holds.distinct directory isDirectory
      chain := fun block leaf => holds.chain block (isLeaf leaf) }

theorem known_root : forest.Known layout volume.image (layout.nodeAt volume.image rootInode) :=
  ⟨rootInode, ⟨_, rfl⟩, fun _ => holds.root⟩

theorem known_named (isDirectory : directory ∈ forest.directories)
    (mem : entry ∈ forest.listing directory) :
    forest.Known layout volume.image (layout.named volume.image entry) := by
  obtain ⟨leaf, listed⟩ := Forest.mem_listing.mp mem
  exact ⟨entry.2.inode, ⟨_, rfl⟩, holds.closed entry.1 ⟨directory, isDirectory, leaf⟩ entry.2 listed⟩

variable (fits : layout.Fits volume)
include fits

theorem lookup_answers (isDirectory : directory ∈ forest.directories)
    (represents : layout.Represents volume.image directory node) (name : List UInt8) :
    Answers volume (Ext4.lookup node name)
      (forest.lookup layout volume.image directory name) :=
  (holds.linear isDirectory represents).lookup fits name

theorem root_answers : Answers volume Ext4.root (.ok (layout.nodeAt volume.image rootInode)) := by
  intro state intact
  obtain ⟨hasInode, readable, -⟩ := holds.directory _ holds.root
  have read := (intact.fits fits).readInode hasInode (by rw [intact.image]; exact readable)
  rw [intact.image] at read
  exact ⟨state, intact, read⟩

theorem walk_answers (names : List (List UInt8)) (known : forest.Known layout volume.image node) :
    Answers volume (Ext4.walk node names) (forest.walk layout volume.image node names) ∧
    ∀ found, forest.walk layout volume.image node names = .ok found →
      forest.Known layout volume.image found := by
  induction names generalizing node with
  | nil => exact ⟨.pure _, fun found same => by cases same; exact known⟩
  | cons component rest ih =>
    rw [Ext4.walk, Forest.walk]
    by_cases long : nameCapacity < component.length
    · rw [if_pos long, if_pos long]
      exact ⟨.throw _, fun _ same => by cases same⟩
    rw [if_neg long, if_neg long]
    by_cases here : component = [dot]
    · rw [if_pos here, if_pos here]
      exact ih known
    rw [if_neg here, if_neg here]
    by_cases isType : node.type = .directory
    · rw [if_neg (not_not.mpr isType), if_neg (not_not.mpr isType)]
      obtain ⟨isDirectory, represents⟩ := known.of_type isType
      have looked := lookup_answers holds fits isDirectory represents component
      cases found : forest.lookup layout volume.image node.inode component with
      | error error =>
        rw [found] at looked
        exact ⟨looked.bind_error, fun _ same => by cases same⟩
      | ok child =>
        rw [found] at looked
        obtain ⟨entry, mem, -, rfl, -⟩ := sought_eq_ok found
        obtain ⟨answers, finds⟩ := ih (known_named holds isDirectory mem)
        exact ⟨looked.bind_ok answers, finds⟩
    · rw [if_pos isType, if_pos isType]
      exact ⟨.throw _, fun _ same => by cases same⟩

theorem lookupPath_answers (path : List UInt8) :
    Answers volume (Ext4.lookupPath path) (forest.lookupPath layout volume.image path) ∧
    ∀ found, forest.lookupPath layout volume.image path = .ok found →
      forest.Known layout volume.image found := by
  obtain ⟨answers, finds⟩ := walk_answers holds fits (components path) (known_root holds)
  refine ⟨.get_bind fun state intact => ?_, finds⟩
  rw [intact.mounted, fits.mounted, if_neg (by simp)]
  exact (root_answers holds fits).bind_ok answers

theorem resolveParent_answers (path : List UInt8) :
    Answers volume (Ext4.resolveParent path)
      (forest.resolveParent layout volume.image path) ∧
    ∀ parent name, forest.resolveParent layout volume.image path = .ok (parent, name) →
      parent.inode ∈ forest.directories ∧
        layout.Represents volume.image parent.inode parent ∧ name ≠ [] ∧
        name.length ≤ 255 ∧ name ≠ [dot] ∧ name ≠ [dot, dot] := by
  refine ⟨.get_bind fun state intact => ?_, fun parent name resolved => ?_⟩
  · rw [intact.mounted, fits.mounted]
    simp only [Bool.true_eq_false, false_or]
    refine .ite (fun _ => .throw _) fun _ => .ite (fun _ => ?_) fun _ => ?_
    · exact (root_answers holds fits).bind_ok (.pure _)
    · refine (lookupPath_answers holds fits _).1.bind fun parent _ => ?_
      exact .ite (fun _ => .pure _) fun _ => .throw _
  simp only [Forest.resolveParent] at resolved
  split at resolved
  · cases resolved
  rename_i taken
  simp only [not_or] at taken
  obtain ⟨-, nonempty, short, notDot, notDots⟩ := taken
  split at resolved
  · cases resolved
    exact ⟨holds.root, ⟨_, rfl⟩, nonempty, Nat.le_of_not_lt short, notDot, notDots⟩
  cases found : forest.lookupPath layout volume.image _ with
  | error error =>
    rw [found] at resolved
    cases resolved
  | ok other =>
    rw [found] at resolved
    simp only [bind, Except.bind] at resolved
    split at resolved
    next isType =>
      cases resolved
      obtain ⟨isDirectory, represents⟩ :=
        ((lookupPath_answers holds fits _).2 _ found).of_type isType
      exact ⟨isDirectory, represents, nonempty, Nat.le_of_not_lt short, notDot, notDots⟩
    · cases resolved

theorem requireAbsent_answers (isDirectory : directory ∈ forest.directories)
    (represents : layout.Represents volume.image directory node) (name : List UInt8) :
    Answers volume (Ext4.requireAbsent node name)
      (forest.requireAbsent layout volume.image directory name) :=
  (holds.linear isDirectory represents).requireAbsent fits name

end
end Paths

/-! ## Writing a block of a directory -/

/-- Only blocks of directories were written. -/
structure Forest.Spares (forest : Forest) (layout : Layout) (before after : Volume) : Prop where
  fits : layout.Fits after
  regions : ∀ region, (∀ block, forest.IsLeaf block → region ≠ .block block) →
    layout.store after.image region = layout.store before.image region
  windows : ∀ block, ¬ forest.IsLeaf block →
    window layout.toGeometry after.image block =
      window layout.toGeometry before.image block

namespace Forest.Spares
variable {forest : Forest} {layout : Layout} {first second third : Volume}

theorem trans (left : forest.Spares layout first second)
    (right : forest.Spares layout second third) : forest.Spares layout first third :=
  ⟨right.fits, fun region other => (right.regions region other).trans (left.regions region other),
    fun block other => (right.windows block other).trans (left.windows block other)⟩

theorem of_intact (fits : layout.Fits first) (intact : Intact first second) :
    forest.Spares layout first second :=
  ⟨intact.fits fits, fun _ _ => by rw [intact.image], fun _ _ => by rw [intact.image]⟩

theorem nodeAt (spares : forest.Spares layout first second) (inode : Nat) :
    layout.nodeAt second.image inode = layout.nodeAt first.image inode := by
  rw [Layout.nodeAt, Layout.nodeAt, spares.regions _ fun _ _ => by simp]

theorem used (spares : forest.Spares layout first second) :
    (layout.disk (layout.store second.image)).used = (layout.disk (layout.store first.image)).used ∧
      (layout.disk (layout.store second.image)).inodeUsed =
        (layout.disk (layout.store first.image)).inodeUsed := by
  constructor
  · funext block
    simp only [Layout.disk]
    rw [spares.regions _ fun _ _ => by simp]
  · funext inode
    simp only [Layout.disk]
    rw [spares.regions _ fun _ _ => by simp]

end Forest.Spares

/-- What a directory of the forest may name. -/
def Forest.Admits (forest : Forest) (layout : Layout) (image : Bytes) (inode : Nat) : Prop :=
  layout.ReadsInode image inode ∧
    ((layout.nodeAt image inode).type = .directory → inode ∈ forest.directories)

/-- Other records in a block. -/
def Forest.rewrite (forest : Forest) (block : Nat) (slots : List Slot) : Forest :=
  { forest with slots := update forest.slots block slots }

section Rewrite
variable {layout : Layout} {forest : Forest} {volume after : Volume} {block directory : Nat}
  {slots : List Slot} {old new : List (Nat × Link)}

variable (holds : forest.Holds layout volume.image)
  (isDirectory : directory ∈ forest.directories)
include holds isDirectory

theorem Forest.Holds.owner (leaf : block ∈ forest.leaves directory)
    (isOther : other ∈ forest.directories) (otherLeaf : block ∈ forest.leaves other) :
    other = directory := by
  by_contra different
  exact holds.apart other isOther directory isDirectory different otherLeaf leaf

theorem Forest.Holds.contains (listed : entry ∈ forest.listing directory)
    (isType : (layout.nodeAt volume.image entry.2.inode).type = .directory) :
    entry.2.inode ∈ forest.directories := by
  obtain ⟨leaf, link⟩ := mem_entriesIn.mp listed
  exact holds.closed _ ⟨directory, isDirectory, leaf⟩ _ link isType

theorem Forest.Holds.rewrite
    (edits : layout.Edits volume after (forest.leaves directory) forest.slots block slots old new)
    (entries : ∀ entry ∈ new, entry ∈ old ∨ forest.Admits layout volume.image entry.2.inode)
    (names : (new.map fun entry => entry.2.name).Nodup) :
    (forest.rewrite block slots).Holds layout after.image := by
  have isLeaf : forest.IsLeaf block := ⟨directory, isDirectory, edits.leaf⟩
  have nodes : ∀ inode, layout.nodeAt after.image inode = layout.nodeAt volume.image inode := by
    intro inode
    rw [Layout.nodeAt, Layout.nodeAt, edits.regions _ (by simp)]
  have slotsThere : (forest.rewrite block slots).slots block = slots := update_self ..
  have slotsElse : ∀ other ≠ block, (forest.rewrite block slots).slots other = forest.slots other :=
    fun other different => update_of_ne different ..
  have closed : ∀ link ∈ links slots, (layout.nodeAt volume.image link.inode).type =
      .directory → link.inode ∈ forest.directories := by
    intro link mem isType
    have listed : (block, link) ∈ new := by
      rw [← edits.new]
      exact mem_entriesIn.mpr ⟨edits.leaf, by rwa [update_self]⟩
    refine (entries _ listed).elim (fun earlier => ?_) fun admits => admits.2 isType
    rw [← edits.old] at earlier
    exact holds.contains isDirectory earlier isType
  refine
    { root := holds.root
      directory := fun other isOther => by
        rw [nodes]
        exact holds.directory other isOther
      size := fun other isOther => by
        rw [nodes]
        exact holds.size other isOther
      mapped := fun other isOther blocks agree i inside => ?_
      data := holds.data
      distinct := holds.distinct
      apart := holds.apart
      chain := fun other otherLeaf => ?_
      closed := fun other otherLeaf link mem isType => ?_
      names := fun other isOther => ?_ }
  · rw [nodes]
    refine holds.mapped other isOther blocks (fun number outside => ?_) i inside
    have different : number ≠ block := fun same => outside (same ▸ isLeaf)
    rw [← edits.windows number different]
    exact agree number outside
  · by_cases same : other = block
    · rw [same, slotsThere]
      exact edits.chain
    · rw [slotsElse other same, edits.windows other same]
      exact holds.chain other otherLeaf
  · rw [nodes] at isType
    by_cases same : other = block
    · rw [same, slotsThere] at mem
      exact closed link mem isType
    · rw [slotsElse other same] at mem
      exact holds.closed other otherLeaf link mem isType
  by_cases same : other = directory
  · rw [same]
    change ((entriesIn (update forest.slots block slots) (forest.leaves directory)).map _).Nodup
    rw [edits.new]
    exact names
  have outside : block ∉ forest.leaves other := fun mem =>
    same (holds.owner isDirectory edits.leaf isOther mem)
  have unchanged : (forest.rewrite block slots).listing other = forest.listing other :=
    entriesIn_update_of_notMem outside
  rw [unchanged]
  exact holds.names other isOther

end Rewrite

/-! ## Entering and erasing a name -/

/-- One directory changed, from some names to others, and nothing else did. -/
structure Forest.Changes (forest forest' : Forest) (layout : Layout) (before after : Volume)
    (directory : Nat) (old new : List (Nat × Link)) : Prop where
  spares : forest.Spares layout before after
  holds : forest'.Holds layout after.image
  directories : forest'.directories = forest.directories
  leaves : forest'.leaves = forest.leaves
  others : ∀ other ∈ forest.directories, other ≠ directory →
    forest'.listing other = forest.listing other
  old : forest.listing directory = old
  new : forest'.listing directory = new

section Enter
variable {layout : Layout} {forest : Forest} {volume : Volume} {directory : Nat} {node child : Node}
  {name : List UInt8}

theorem Forest.Holds.changes (holds : forest.Holds layout volume.image)
    (isDirectory : directory ∈ forest.directories) {after : Volume} {slots : List Slot}
    (edits : layout.Edits volume after (forest.leaves directory) forest.slots block slots old new)
    (entries : ∀ entry ∈ new, entry ∈ old ∨ forest.Admits layout volume.image entry.2.inode)
    (names : (new.map fun entry => entry.2.name).Nodup) :
    forest.Changes (forest.rewrite block slots) layout volume after directory old new := by
  have isLeaf : forest.IsLeaf block := ⟨directory, isDirectory, edits.leaf⟩
  refine ⟨⟨edits.fits, fun region other => edits.regions region (other block isLeaf),
    fun other outside => edits.windows other fun same => outside (same ▸ isLeaf)⟩,
    holds.rewrite isDirectory edits entries names, rfl, rfl, fun other isOther apart => ?_,
    edits.old, edits.new⟩
  exact entriesIn_update_of_notMem fun mem => apart (holds.owner isDirectory edits.leaf isOther mem)

section
variable (fits : layout.Fits volume) (holds : forest.Holds layout volume.image)
  (isDirectory : directory ∈ forest.directories)
  (represents : layout.Represents volume.image directory node)
include fits holds isDirectory represents

theorem insertDirectoryEntry_cases
    (absent : ∀ entry ∈ forest.listing directory, entry.2.name ≠ name)
    (admits : forest.Admits layout volume.image child.inode) :
    ∀ state, Intact volume state →
      (∃ error after, insertDirectoryEntry node name child state = .error error after ∧
        Intact volume after) ∨
      ∃ after forest' entry first second,
        insertDirectoryEntry node name child state = .ok () after ∧
        entry.2.name = name ∧ entry.2.inode = child.inode ∧
        forest.Changes forest' layout volume after directory (first ++ second)
          (first ++ entry :: second) := by
  intro state intact
  rcases @Layout.Linear.insertDirectoryEntry layout volume node child _ _ name fits
    (holds.linear isDirectory represents) (Nat.pos_iff_ne_zero.mp admits.1.1.1)
    (Nat.lt_of_le_of_lt admits.1.1.2 layout.sound.inodeLimit) state intact with
    ⟨error, after, failed, kept, -⟩ |
      ⟨after, block, renewed, entry, first, second, inserted, edits, rfl, sameInode⟩
  · exact .inl ⟨error, after, failed, kept⟩
  have listed : forest.listing directory = first ++ second := edits.old
  refine .inr ⟨after, forest.rewrite block renewed, entry, first, second, inserted, rfl, sameInode,
    holds.changes isDirectory edits (fun found mem => ?_) ?_⟩
  · rcases mem_append.mp mem with earlier | later
    · exact .inl (mem_append_left _ earlier)
    rcases mem_cons.mp later with rfl | later
    · rw [sameInode]
      exact .inr admits
    · exact .inl (mem_append_right _ later)
  have distinct := holds.names directory isDirectory
  rw [listed, map_append] at distinct
  rw [map_append, map_cons, nodup_middle]
  refine nodup_cons.mpr ⟨fun mem => ?_, distinct⟩
  rw [← map_append, ← listed] at mem
  obtain ⟨found, isListed, same⟩ := mem_map.mp mem
  exact absent found isListed same

theorem eraseDirectoryEntry_ok (mem : entry ∈ forest.listing directory) :
    ∃ after forest' first second,
      eraseDirectoryEntry node (entry.1 * layout.blockSize + entry.2.offset) volume = .ok () after ∧
      forest.Changes forest' layout volume after directory (first ++ entry :: second)
        (first ++ second) := by
  obtain ⟨after, renewed, first, second, erased, edits⟩ :=
    (holds.linear isDirectory represents).eraseDirectoryEntry fits mem
  have listed : forest.listing directory = first ++ entry :: second := edits.old
  refine ⟨after, forest.rewrite entry.1 renewed, first, second, erased,
    holds.changes isDirectory edits (fun found kept => ?_) ?_⟩
  · rcases mem_append.mp kept with earlier | later
    · exact .inl (mem_append_left _ earlier)
    · exact .inl (mem_append_right _ (mem_cons_of_mem _ later))
  · have distinct := holds.names directory isDirectory
    rw [listed, map_append, map_cons, nodup_middle] at distinct
    rw [map_append]
    exact (nodup_cons.mp distinct).2

end
end Enter

/-! ## Moving a name -/

def Forest.Names (forest : Forest) (directory : Nat) (name : List UInt8) (inode : Nat) : Prop :=
  ∃ entry ∈ forest.listing directory, entry.2.name = name ∧ entry.2.inode = inode

/-- A name was moved: the inode that one directory named is named by another, and
nothing else changed. -/
structure Forest.Moves (forest forest' : Forest) (layout : Layout) (before after : Volume)
    (source destination : Nat × List UInt8) (inode : Nat) : Prop where
  spares : forest.Spares layout before after
  holds : forest'.Holds layout after.image
  directories : forest'.directories = forest.directories
  leaves : forest'.leaves = forest.leaves
  named : forest.Names source.1 source.2 inode
  absent : ∀ other, ¬ forest.Names destination.1 destination.2 other
  names : ∀ directory ∈ forest.directories, ∀ name other,
    forest'.Names directory name other ↔
      forest.Names directory name other ∧ (directory, name) ≠ source ∨
        (directory, name) = destination ∧ other = inode

section Move
variable {layout : Layout} {forest forest' : Forest} {volume before after : Volume}
  {directory inode other : Nat} {name : List UInt8} {old new first second : List (Nat × Link)}
  {entry : Nat × Link}

theorem Forest.Holds.names_unique (holds : forest.Holds layout volume.image)
    (isDirectory : directory ∈ forest.directories) (isLeft : left ∈ forest.listing directory)
    (isRight : right ∈ forest.listing directory) (same : left.2.name = right.2.name) :
    left = right :=
  inj_on_of_nodup_map (holds.names directory isDirectory) isLeft isRight same

theorem Forest.IsLeaf.congr (directories : forest'.directories = forest.directories)
    (leaves : forest'.leaves = forest.leaves) (block : Nat) :
    forest'.IsLeaf block ↔ forest.IsLeaf block := by
  rw [Forest.IsLeaf, Forest.IsLeaf, directories, leaves]

theorem Forest.Spares.congr (directories : forest'.directories = forest.directories)
    (leaves : forest'.leaves = forest.leaves) (spares : forest'.Spares layout before after) :
    forest.Spares layout before after := by
  have same := Forest.IsLeaf.congr directories leaves
  refine ⟨spares.fits, fun region outside => spares.regions region fun block isLeaf =>
    outside block ((same block).mp isLeaf), fun block outside => spares.windows block fun isLeaf =>
    outside ((same block).mp isLeaf)⟩

theorem Forest.Changes.isDirectory
    (changes : forest.Changes forest' layout before after directory old new)
    (isDirectory : other ∈ forest.directories) : other ∈ forest'.directories := by
  rw [changes.directories]
  exact isDirectory

theorem Forest.Changes.represents
    (changes : forest.Changes forest' layout before after directory old new)
    (represents : layout.Represents before.image inode node) :
    layout.Represents after.image inode node := by
  obtain ⟨place, rfl⟩ := represents
  exact ⟨place, by rw [changes.spares.nodeAt]⟩

theorem Forest.Changes.member
    (changes : forest.Changes forest' layout before after directory (first ++ second)
      (first ++ entered :: second)) (isOther : other ∈ forest.directories)
    (mem : entry ∈ forest.listing other) : entry ∈ forest'.listing other := by
  by_cases same : other = directory
  · subst same
    rw [changes.old] at mem
    rw [changes.new]
    rcases mem_append.mp mem with earlier | later
    · exact mem_append_left _ earlier
    · exact mem_append_right _ (mem_cons_of_mem _ later)
  · rw [changes.others other isOther same]
    exact mem

theorem Forest.Changes.names_entered
    (changes : forest.Changes forest' layout before after directory (first ++ second)
      (first ++ entry :: second)) (isOther : other ∈ forest.directories) (name : List UInt8)
    (inode : Nat) :
    forest'.Names other name inode ↔ forest.Names other name inode ∨
      other = directory ∧ entry.2.name = name ∧ entry.2.inode = inode := by
  by_cases same : other = directory
  · subst same
    rw [Forest.Names, Forest.Names, changes.old, changes.new]
    simp only [mem_append, mem_cons, true_and]
    constructor
    · rintro ⟨found, mem | rfl | mem, facts⟩
      · exact .inl ⟨found, .inl mem, facts⟩
      · exact .inr facts
      · exact .inl ⟨found, .inr mem, facts⟩
    · rintro (⟨found, mem | mem, facts⟩ | facts)
      · exact ⟨found, .inl mem, facts⟩
      · exact ⟨found, .inr (.inr mem), facts⟩
      · exact ⟨entry, .inr (.inl rfl), facts⟩
  · rw [Forest.Names, Forest.Names, changes.others other isOther same]
    simp [same]

theorem Forest.Changes.names_erased
    (changes : forest.Changes forest' layout before after directory (first ++ entry :: second)
      (first ++ second)) (holds : forest.Holds layout before.image)
    (isDirectory : directory ∈ forest.directories) (isOther : other ∈ forest.directories)
    (name : List UInt8) (inode : Nat) :
    forest'.Names other name inode ↔
      forest.Names other name inode ∧ (other, name) ≠ (directory, entry.2.name) := by
  by_cases same : other = directory
  · subst same
    have distinct := holds.names other isDirectory
    rw [Forest.Names, Forest.Names, changes.old, changes.new]
    rw [changes.old, map_append, map_cons, nodup_middle, ← map_append]
      at distinct
    have unique := (nodup_cons.mp distinct).1
    simp only [mem_append, mem_cons, ne_eq, Prod.mk.injEq, true_and]
    constructor
    · rintro ⟨found, mem, rfl, sameInode⟩
      refine ⟨⟨found, mem.imp_right .inr, rfl, sameInode⟩, fun sameName => unique ?_⟩
      rw [← sameName]
      exact mem_map_of_mem (f := fun entry : Nat × Link => entry.2.name) (mem_append.mpr mem)
    · rintro ⟨⟨found, mem | rfl | mem, rfl, sameInode⟩, apart⟩
      · exact ⟨found, .inl mem, rfl, sameInode⟩
      · exact absurd rfl apart
      · exact ⟨found, .inr mem, rfl, sameInode⟩
  · rw [Forest.Names, Forest.Names, changes.others other isOther same]
    simp [same]

theorem Forest.Moves.of_changes (isSource : source ∈ forest.directories)
    (mem : entry ∈ forest.listing source)
    (absent : ∀ found ∈ forest.listing destination, found.2.name ≠ entered.2.name)
    (sameInode : entered.2.inode = entry.2.inode)
    (enters : forest.Changes forest₁ layout before middle destination (first ++ second)
      (first ++ entered :: second))
    (erases : forest₁.Changes forest₂ layout middle after source (third ++ entry :: fourth)
      (third ++ fourth)) :
    forest.Moves forest₂ layout before after (source, entry.2.name)
      (destination, entered.2.name) entry.2.inode where
  spares := enters.spares.trans (erases.spares.congr enters.directories enters.leaves)
  holds := erases.holds
  directories := erases.directories.trans enters.directories
  leaves := erases.leaves.trans enters.leaves
  named := ⟨entry, mem, rfl, rfl⟩
  absent := by
    rintro other ⟨found, isFound, sameName, -⟩
    exact absent found isFound sameName
  names := by
    intro directory isDirectory name other
    rw [erases.names_erased enters.holds (enters.isDirectory isSource)
      (enters.isDirectory isDirectory), enters.names_entered isDirectory, sameInode]
    have distinct : (destination, entered.2.name) ≠ (source, entry.2.name) := by
      intro same
      rw [Prod.mk.injEq] at same
      obtain ⟨rfl, sameName⟩ := same
      exact absent entry mem sameName.symm
    constructor
    · rintro ⟨named | ⟨rfl, rfl, rfl⟩, different⟩
      · exact .inl ⟨named, different⟩
      · exact .inr ⟨rfl, rfl⟩
    rintro (⟨named, different⟩ | ⟨same, rfl⟩)
    · exact ⟨.inl named, different⟩
    · rw [Prod.mk.injEq] at same
      obtain ⟨rfl, rfl⟩ := same
      exact ⟨.inr ⟨rfl, rfl, rfl⟩, distinct⟩

theorem move_cases (fits : layout.Fits volume) (holds : forest.Holds layout volume.image)
    (source destination : List UInt8) :
    Refuses (Ext4.move source destination) volume ∨
      ∃ sourceParent sourceName destinationParent destinationName inode after forest',
        forest.resolveParent layout volume.image source = .ok (sourceParent, sourceName) ∧
        forest.resolveParent layout volume.image destination =
          .ok (destinationParent, destinationName) ∧
        Ext4.move source destination volume = .ok () after ∧
        forest.Moves forest' layout volume after (sourceParent.inode, sourceName)
          (destinationParent.inode, destinationName) inode := by
  rw [Refuses, Ext4.move]
  obtain ⟨answers₁, finds₁⟩ := resolveParent_answers holds fits source
  obtain ⟨volume₁, intact₁, ran₁⟩ := answers₁ volume (refl_of Intact volume)
  cases resolved₁ : forest.resolveParent layout volume.image source with
  | error error =>
    rw [resolved₁] at ran₁
    exact .inl ⟨_, _, bind_of_error ran₁, intact₁⟩
  | ok found₁ =>
  obtain ⟨sourceParent, sourceName⟩ := found₁
  obtain ⟨isSource, represents₁, -⟩ := finds₁ _ _ resolved₁
  rw [resolved₁] at ran₁
  rw [bind_of_ok ran₁]
  obtain ⟨answers₂, finds₂⟩ := resolveParent_answers holds fits destination
  obtain ⟨volume₂, intact₂, ran₂⟩ := answers₂ volume₁ intact₁
  cases resolved₂ : forest.resolveParent layout volume.image destination with
  | error error =>
    rw [resolved₂] at ran₂
    exact .inl ⟨_, _, bind_of_error ran₂, intact₂⟩
  | ok found₂ =>
  obtain ⟨destinationParent, destinationName⟩ := found₂
  obtain ⟨isDestination, represents₂, -⟩ := finds₂ _ _ resolved₂
  rw [resolved₂] at ran₂
  dsimp only
  rw [bind_of_ok ran₂]
  obtain ⟨volume₃, intact₃, ran₃⟩ :=
    lookup_answers holds fits isSource represents₁ sourceName volume₂ intact₂
  cases looked : forest.lookup layout volume.image sourceParent.inode sourceName with
  | error error =>
    rw [looked] at ran₃
    exact .inl ⟨_, _, bind_of_error ran₃, intact₃⟩
  | ok file =>
  rw [looked] at ran₃
  rw [bind_of_ok ran₃]
  obtain ⟨entry, mem, rfl, rfl, reads⟩ := sought_eq_ok looked
  obtain ⟨volume₄, intact₄, ran₄⟩ :=
    requireAbsent_answers holds fits isDestination represents₂ destinationName volume₃ intact₃
  cases required : forest.requireAbsent layout volume.image destinationParent.inode
      destinationName with
  | error error =>
    rw [required] at ran₄
    exact .inl ⟨_, _, bind_of_error ran₄, intact₄⟩
  | ok nothing =>
  rw [required] at ran₄
  rw [bind_of_ok ran₄]
  have absent := not_mem_of_absence required
  have inserts := @insertDirectoryEntry_cases layout forest volume destinationParent.inode
    destinationParent (layout.named volume.image entry) destinationName fits holds
    isDestination represents₂ absent ⟨reads, holds.contains isSource mem⟩ volume₄
    intact₄
  rcases inserts with ⟨error, after, failed, intact⟩ |
    ⟨middle, forest₁, entered, first, second, inserted, rfl, inodeEntered, enters⟩
  · exact .inl ⟨_, _, bind_of_error failed, intact⟩
  rw [bind_of_ok inserted]
  obtain ⟨after, forest₂, third, fourth, erased, erases⟩ := eraseDirectoryEntry_ok
    (enters.spares.fits) enters.holds (enters.isDirectory isSource) (enters.represents represents₁)
    (enters.member isSource mem)
  exact .inr ⟨sourceParent, entry.2.name, destinationParent, entered.2.name, entry.2.inode, after,
    forest₂, rfl, rfl, erased, .of_changes isSource mem absent inodeEntered enters erases⟩

end Move
end Mikos.Ext4
