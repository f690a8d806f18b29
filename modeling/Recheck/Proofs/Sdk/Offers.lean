import Mathlib.Data.List.Sort
import Recheck.Proofs.FileSystem.Components
import Recheck.Proofs.Sdk.Tables
/-!
# SDKs that platforms offer

What the table holds under a key, in terms of the directories of the platforms: of those that have an SDK of the key the
last prevails, and in it the SDK of the greatest path (`lookup_named_iff`).  So the table depends on which names are
listed, not on their order (`table_congr`), and where they are not listed at all there is nothing.  The alias stands for
an SDK only where no platform offers one of its name (`lookup_alias_iff`).
-/
namespace Recheck.Sdk
open FileSystem

/-- The names in a directory; none where it cannot be listed. -/
def listing (fs : FileSystem) (p : Path) : List Name :=
  match fs.list p with
  | .ok entries => entries.map Prod.fst
  | .error _    => []

/-- A platform has an SDK of a key: an entry with the extension `sdk` whose stem is, in lower case, the key. -/
structure Offers (fs : FileSystem) (developerDir : Path) (platform key : String) (name : Name) : Prop where
  listed : name ∈ listing fs (directoryOf developerDir platform)
  sdk : (Path.mk name).hasExtension "sdk" = true
  stem : ∃ stem, (Path.mk name).stem? = some stem ∧ lowercase (String.ofList stem) = key

/-- The path of an SDK of a key: the platform is the last that has one, and the name the greatest it has. -/
def Prevails (fs : FileSystem) (developerDir : Path) (key : String) (path : Path) : Prop :=
  ∃ before platform after name, platforms = before ++ platform :: after ∧
    Offers fs developerDir platform key name ∧
    (∀ other, Offers fs developerDir platform key other → other ≤ name) ∧
    (∀ later ∈ after, ∀ other, ¬Offers fs developerDir later key other) ∧
    path = (directoryOf developerDir platform).join ⟨name⟩

/-- Some platform has an SDK of a key. -/
def Offered (fs : FileSystem) (developerDir : Path) (key : String) : Prop :=
  ∃ platform ∈ platforms, ∃ name, Offers fs developerDir platform key name

theorem inDirectory_eq (fs : FileSystem) (d : Path) :
    inDirectory fs d =
      (((listing fs d).filter fun name => (Path.mk name).hasExtension "sdk").mergeSort (· ≤ ·)).map
        fun name => d.join ⟨name⟩ := by
  rw [inDirectory, listing]
  cases fs.list d with
  | ok entries => rfl
  | error e => simp

theorem exists_stem {name : Name} {ext : String} (h : (Path.mk name).hasExtension ext = true) :
    ∃ file, (Path.mk name).fileName? = some file := by
  rw [Path.hasExtension, Path.extension?] at h
  cases hf : (Path.mk name).fileName? with
  | none => rw [hf] at h; cases h
  | some file => exact ⟨file, rfl⟩

/-- The key of an SDK is that of its name, wherever it is. -/
theorem keyOf_join (d : Path) {name : Name} (h : (Path.mk name).hasExtension "sdk" = true) :
    keyOf (d.join ⟨name⟩) = keyOf ⟨name⟩ := by
  obtain ⟨file, hf⟩ := exists_stem h
  rw [keyOf, keyOf, Path.stem?, Path.stem?, hf, Path.fileName?_join d hf]

theorem offers_iff {fs : FileSystem} {developerDir : Path} {platform key : String} {name : Name} :
    Offers fs developerDir platform key name ↔ (name ∈ listing fs (directoryOf developerDir platform) ∧
      (Path.mk name).hasExtension "sdk" = true) ∧ keyOf ⟨name⟩ = key := by
  constructor
  · rintro ⟨hlisted, hsdk, stem, hstem, hkey⟩
    refine ⟨⟨hlisted, hsdk⟩, ?_⟩
    rwa [keyOf, hstem]
  · rintro ⟨⟨hlisted, hsdk⟩, hkey⟩
    obtain ⟨file, hf⟩ := exists_stem hsdk
    rw [keyOf, Path.stem?, hf] at hkey
    exact ⟨hlisted, hsdk, _, by rw [Path.stem?, hf]; rfl, hkey⟩

section
variable (fs : FileSystem) (developerDir : Path) (platform key : String)

/-- The names under which a platform has a key, sorted. -/
def offeredNames : List Name :=
  (((listing fs (directoryOf developerDir platform)).filter fun name =>
    (Path.mk name).hasExtension "sdk").mergeSort (· ≤ ·)).filter fun name => keyOf ⟨name⟩ = key

theorem filter_inDirectory :
    (inDirectory fs (directoryOf developerDir platform)).filter (keyOf · = key) =
      (offeredNames fs developerDir platform key).map fun name => (directoryOf developerDir platform).join ⟨name⟩ := by
  rw [inDirectory_eq, List.filter_map, offeredNames]
  refine congrArg _ (List.filter_congr fun name hname => ?_)
  have hsdk := (List.mem_filter.1 (List.mem_mergeSort.1 hname)).2
  rw [Function.comp_apply, keyOf_join _ hsdk]

variable {fs developerDir platform key}

theorem mem_offeredNames {name : Name} : name ∈ offeredNames fs developerDir platform key ↔
    Offers fs developerDir platform key name := by
  rw [offeredNames, List.mem_filter, List.mem_mergeSort, List.mem_filter, decide_eq_true_iff, offers_iff]

theorem pairwise_offeredNames : (offeredNames fs developerDir platform key).Pairwise (· ≤ ·) := by
  refine List.Pairwise.filter _ ?_
  have hsorted := @List.pairwise_mergeSort String (fun a b => decide (a ≤ b))
    (fun a b c hab hbc => by simpa using String.le_trans (by simpa using hab) (by simpa using hbc))
    (fun a b => by simpa using String.le_total a b)
  exact (hsorted _).imp fun h => by simpa using h

theorem getLast?_offeredNames {name : Name} : (offeredNames fs developerDir platform key).getLast? = some name ↔
    Offers fs developerDir platform key name ∧ ∀ other, Offers fs developerDir platform key other → other ≤ name := by
  constructor
  · intro hlast
    refine ⟨mem_offeredNames.1 (List.mem_of_getLast? hlast), fun other ho => ?_⟩
    exact le_getLast? pairwise_offeredNames hlast other (mem_offeredNames.2 ho)
  · rintro ⟨ho, hgreatest⟩
    cases hlast : (offeredNames fs developerDir platform key).getLast? with
    | none => exact absurd (mem_offeredNames.2 ho) (by rw [List.getLast?_eq_none_iff.1 hlast]; exact List.not_mem_nil)
    | some last =>
      have hle := hgreatest last (mem_offeredNames.1 (List.mem_of_getLast? hlast))
      have hge := le_getLast? pairwise_offeredNames hlast name (mem_offeredNames.2 ho)
      rw [String.le_antisymm hle hge]

theorem offeredNames_eq_nil : offeredNames fs developerDir platform key = [] ↔
    ∀ name, ¬Offers fs developerDir platform key name := by
  rw [List.eq_nil_iff_forall_not_mem]
  exact forall_congr' fun name => not_congr mem_offeredNames

end

/-! ## The table without the alias -/

section
variable (fs : FileSystem) (developerDir : Path)

theorem lookup_named (k : String) : (named fs developerDir).lookup k =
    (platforms.flatMap fun platform =>
      (offeredNames fs developerDir platform k).map fun name =>
        (directoryOf developerDir platform).join ⟨name⟩).getLast? := by
  rw [named_eq, lookup_tableOf, all, List.filter_flatMap]
  simp only [filter_inDirectory, List.lookup_nil, Option.or_none]

variable {fs developerDir}

/-- **The last platform that has an SDK of a key prevails, and in it the greatest name.** -/
theorem lookup_named_iff {k : String} {path : Path} :
    (named fs developerDir).lookup k = some path ↔ Prevails fs developerDir k path := by
  rw [lookup_named, List.getLast?_flatMap, List.findSome?_eq_some_iff]
  simp only [List.getLast?_map, Option.map_eq_some_iff, Option.map_eq_none_iff, getLast?_offeredNames,
    List.getLast?_eq_none_iff, offeredNames_eq_nil]
  constructor
  · rintro ⟨after, platform, before, hsplit, ⟨name, ⟨ho, hgreatest⟩, rfl⟩, hlater⟩
    refine ⟨before.reverse, platform, after.reverse, name, ?_, ho, hgreatest, fun later hl => ?_, rfl⟩
    · rw [← List.reverse_reverse platforms, hsplit]
      simp
    · exact hlater later (List.mem_reverse.1 hl)
  · rintro ⟨before, platform, after, name, hsplit, ho, hgreatest, hlater, rfl⟩
    refine ⟨after.reverse, platform, before.reverse, ?_, ⟨name, ⟨ho, hgreatest⟩, rfl⟩, fun later hl => ?_⟩
    · rw [hsplit]
      simp
    · exact hlater later (List.mem_reverse.1 hl)

/-- **A key is in the table where some platform has an SDK of it.** -/
theorem exists_lookup_named_iff {k : String} : (∃ path, (named fs developerDir).lookup k = some path) ↔
    Offered fs developerDir k := by
  have hnone : (named fs developerDir).lookup k = none ↔ ∀ platform ∈ platforms, ∀ name,
      ¬Offers fs developerDir platform k name := by
    rw [lookup_named, List.getLast?_eq_none_iff, List.flatMap_eq_nil_iff]
    exact forall₂_congr fun platform _ => by rw [List.map_eq_nil_iff, offeredNames_eq_nil]
  rw [← Option.ne_none_iff_exists', ne_eq, hnone]
  push Not
  rfl

theorem exists_prevails_iff {k : String} : (∃ path, Prevails fs developerDir k path) ↔ Offered fs developerDir k := by
  simp only [← lookup_named_iff, exists_lookup_named_iff]

theorem ascends_named : (named fs developerDir).Ascends := ascends_tableOf _ List.Pairwise.nil

/-! ## The table -/

theorem ascends_table : (table fs developerDir).Ascends := ascends_withAlias ascends_named

theorem lookup_table_iff {k : String} (hk : k ≠ aliasName) {path : Path} :
    (table fs developerDir).lookup k = some path ↔ Prevails fs developerDir k path := by
  rw [table, lookup_withAlias_of_ne hk, lookup_named_iff]

theorem exists_lookup_table_iff {k : String} (hk : k ≠ aliasName) :
    (∃ path, (table fs developerDir).lookup k = some path) ↔ Offered fs developerDir k := by
  rw [table, lookup_withAlias_of_ne hk, exists_lookup_named_iff]

/-- An SDK that is called like the alias is what the table holds under it. -/
theorem lookup_alias_of_offered (h : Offered fs developerDir aliasName) {path : Path} :
    (table fs developerDir).lookup aliasName = some path ↔ Prevails fs developerDir aliasName path := by
  obtain ⟨path', hl⟩ := exists_lookup_named_iff.2 h
  rw [table, withAlias_of_lookup hl, lookup_named_iff]

section
variable (h : ¬Offered fs developerDir aliasName)
include h

theorem lookup_named_alias : (named fs developerDir).lookup aliasName = none := by
  rw [Option.eq_none_iff_forall_ne_some]
  exact fun path hl => h (exists_lookup_named_iff.1 ⟨path, hl⟩)

/-- **Without an SDK of its name the alias stands for the greatest of the keys that go on with a digit.** -/
theorem lookup_alias_iff {path : Path} : (table fs developerDir).lookup aliasName = some path ↔
    ∃ k, Versioned k ∧ Prevails fs developerDir k path ∧
      ∀ other, Versioned other → Offered fs developerDir other → other ≤ k := by
  rw [table, lookup_withAlias_iff ascends_named (lookup_named_alias h)]
  simp only [lookup_named_iff, exists_prevails_iff]

theorem exists_lookup_alias_iff : (∃ path, (table fs developerDir).lookup aliasName = some path) ↔
    ∃ k, Versioned k ∧ Offered fs developerDir k := by
  rw [table, exists_lookup_withAlias_iff ascends_named (lookup_named_alias h)]
  simp only [exists_lookup_named_iff]

end

/-! ## What the table depends on -/

theorem Prevails.congr {fs' : FileSystem} (h : ∀ platform ∈ platforms, ∀ key name,
    Offers fs' developerDir platform key name ↔ Offers fs developerDir platform key name) {k : String} {path : Path} :
    Prevails fs' developerDir k path ↔ Prevails fs developerDir k path := by
  refine exists_congr fun before => exists_congr fun platform => exists_congr fun after => exists_congr fun name =>
    and_congr_right fun hsplit => ?_
  have hp : ∀ p ∈ platform :: after, p ∈ platforms := fun p hp => hsplit ▸ List.mem_append_right before hp
  have hhere := h platform (hp _ List.mem_cons_self)
  have hlater : ∀ later ∈ after, ∀ other,
      ¬Offers fs' developerDir later k other ↔ ¬Offers fs developerDir later k other :=
    fun later hl other => not_congr (h later (hp _ (List.mem_cons_of_mem _ hl)) k other)
  simp only [hhere]
  exact and_congr_right fun _ => and_congr_right fun _ => and_congr_left fun _ =>
    forall₂_congr fun later hl => forall_congr' fun other => hlater later hl other

/-- **The table depends on nothing but the names listed for the platforms.** -/
theorem table_congr {fs' : FileSystem} (h : ∀ platform ∈ platforms, ∀ name,
    name ∈ listing fs' (directoryOf developerDir platform) ↔ name ∈ listing fs (directoryOf developerDir platform)) :
    table fs' developerDir = table fs developerDir := by
  have hoffers : ∀ platform ∈ platforms, ∀ key name,
      Offers fs' developerDir platform key name ↔ Offers fs developerDir platform key name := by
    intro platform hp key name
    rw [offers_iff, offers_iff, h platform hp name]
  refine congrArg withAlias (ascends_named.ext ascends_named fun k => Option.ext fun path => ?_)
  rw [lookup_named_iff, lookup_named_iff, Prevails.congr hoffers]

end

/-! ## The order of entries -/

section
variable {fs fs' : FileSystem} (hw : fs'.workDir = fs.workDir) (hn : (fs.nodes.map Prod.fst).Nodup)
  (hp : fs'.nodes.Perm fs.nodes)
include hn hp

/-- Where an address has one node, the order of nodes does not matter to what it holds. -/
theorem node?_of_perm (a : Address) : fs'.node? a = fs.node? a := by
  cases a with
  | nil => rfl
  | cons name a =>
    have hn' : (fs'.nodes.map Prod.fst).Nodup := ((hp.map Prod.fst).nodup_iff).2 hn
    refine Option.ext fun node => ?_
    rw [node?, node?, lookup_iff_mem hn', lookup_iff_mem hn, hp.mem_iff]

include hw

theorem keepsWays_of_perm : KeepsWays fs fs' :=
  ⟨hw, fun a h => (node?_of_perm hn hp a).trans h, fun a _ h => (node?_of_perm hn hp a).trans h⟩

theorem listing_subset_of_perm {p : Path} {name : Name} (h : name ∈ listing fs p) : name ∈ listing fs' p := by
  unfold listing at h ⊢
  cases hl : fs.list p with
  | error e => rw [hl] at h; cases h
  | ok entries =>
    obtain ⟨a, rfl, hl'⟩ := (keepsWays_of_perm hw hn hp).list hl
    rw [hl] at h
    rw [hl']
    exact (((hp.filterMap _).map Prod.fst).mem_iff).2 h

/-- **The order in which entries are kept does not matter to what is listed.** -/
theorem mem_listing_of_perm {p : Path} {name : Name} : name ∈ listing fs' p ↔ name ∈ listing fs p := by
  have hn' : (fs'.nodes.map Prod.fst).Nodup := ((hp.map Prod.fst).nodup_iff).2 hn
  exact ⟨listing_subset_of_perm hw.symm hn' hp.symm, listing_subset_of_perm hw hn hp⟩

end

/-- **What the table of an installation holds.**  Under every key that a platform has an SDK of it holds the path of
one: of the last such platform, and there the greatest.  The alias comes in only where no SDK is called like it, and
then it stands for one of those whose keys go on with a digit.  In which order directories list their entries does not
matter, and what is listed elsewhere does not count. -/
theorem table_of_platforms (fs : FileSystem) (developerDir : Path) :
    -- in whatever order entries are kept, the table is the same
    (∀ nodes, (fs.nodes.map Prod.fst).Nodup → nodes.Perm fs.nodes →
      table { fs with nodes := nodes } developerDir = table fs developerDir) ∧
    -- and nothing matters but which names the directories of the four platforms list
    (∀ fs' : FileSystem, (∀ platform ∈ platforms, ∀ name,
        name ∈ listing fs' (directoryOf developerDir platform) ↔
          name ∈ listing fs (directoryOf developerDir platform)) →
      table fs' developerDir = table fs developerDir) ∧
    -- every name is there once
    (table fs developerDir).Ascends ∧
    -- a key is there where a platform has an SDK of it, of which the last and greatest prevails
    (∀ k, k ≠ aliasName →
      ((∃ path, (table fs developerDir).lookup k = some path) ↔ Offered fs developerDir k) ∧
      ∀ path, (table fs developerDir).lookup k = some path ↔ Prevails fs developerDir k path) ∧
    -- (in one directory the greatest name makes the greatest path)
    (∀ (d : Path) {name other : Name}, IsName name → IsName other →
      ((d.join ⟨name⟩).Precedes (d.join ⟨other⟩) ↔ name < other)) ∧
    -- an SDK called like the alias is not replaced
    (Offered fs developerDir aliasName →
      ∀ path, (table fs developerDir).lookup aliasName = some path ↔ Prevails fs developerDir aliasName path) ∧
    -- without one the alias stands for a key that goes on with a digit, if there is one
    (¬Offered fs developerDir aliasName →
      ((∃ path, (table fs developerDir).lookup aliasName = some path) ↔
        ∃ k, Versioned k ∧ Offered fs developerDir k) ∧
      ∀ path, (table fs developerDir).lookup aliasName = some path ↔
        ∃ k, Versioned k ∧ Prevails fs developerDir k path ∧
          ∀ other, Versioned other → Offered fs developerDir other → other ≤ k) ∧
    -- a name is looked up in lower case
    ∀ name, find? fs developerDir name = (table fs developerDir).lookup (lowercase name) := by
  refine ⟨fun nodes hn hp => ?_, fun fs' h => table_congr h, ascends_table, fun k hk => ?_, ?_,
    fun h path => lookup_alias_of_offered h, fun h => ?_, fun name => rfl⟩
  · have hlisting : ∀ p name, name ∈ listing { fs with nodes := nodes } p ↔ name ∈ listing fs p :=
      fun p name => @mem_listing_of_perm fs { fs with nodes := nodes } rfl hn hp p name
    exact table_congr fun platform _ name => hlisting _ name
  · exact ⟨exists_lookup_table_iff hk, fun path => lookup_table_iff hk⟩
  · exact fun d name other hn ho => Path.precedes_join_iff d hn ho
  · exact ⟨exists_lookup_alias_iff h, fun path => lookup_alias_iff h⟩

namespace Sample

def sdksDir : Address := ["Platforms", "MacOSX.platform", "Developer", "SDKs"]

/-- An installation in the root directory, with SDKs of one platform only. -/
def installation (sdks : List Name) : FileSystem :=
  ⟨[(["Platforms"], .directory), (["Platforms", "MacOSX.platform"], .directory),
    (["Platforms", "MacOSX.platform", "Developer"], .directory), (sdksDir, .directory)] ++
    sdks.map fun name => (sdksDir ++ [name], .directory), [], 1, []⟩

def sdkPath (name : Name) : Path := (directoryOf ⟨"/"⟩ "MacOSX").join ⟨name⟩

variable {sdks : List Name}

theorem listing_installation : listing (installation sdks) (directoryOf ⟨"/"⟩ "MacOSX") = sdks := by
  have hentry : ∀ name ∈ sdksDir, IsEntry name := by
    simp only [sdksDir, List.forall_mem_cons]
    exact ⟨⟨by decide, by decide, by decide⟩, ⟨by decide, by decide, by decide⟩, ⟨by decide, by decide, by decide⟩,
      ⟨by decide, by decide, by decide⟩, fun _ h => nomatch h⟩
  have hpath : IsPath (directoryOf ⟨"/"⟩ "MacOSX") := ⟨by decide, by decide, by decide⟩
  have hd : Leads (installation sdks) linkLimit [] ("" :: sdksDir) linkLimit sdksDir :=
    .skip (.inl rfl) (.down (hentry _ (by decide)) rfl (.down (hentry _ (by decide)) rfl
      (.down (hentry _ (by decide)) rfl (.down (hentry _ (by decide)) rfl .here))))
  have hlist : (installation sdks).list (directoryOf ⟨"/"⟩ "MacOSX") = .ok ((installation sdks).entries sdksDir) := by
    refine list_eq_ok_iff.2 ⟨sdksDir, ?_, rfl⟩
    rw [locate, hpath.locateFrom]
    exact hd.walk_eq
  have hfirst : sdks.map (Prod.fst ∘ fun name => (name, Node.directory)) = sdks := List.map_id sdks
  rw [listing, hlist]
  simp [entries, installation, sdksDir, hfirst]

theorem listing_missing {platform : String} (hp : platform ∈ platforms) (hne : platform ≠ "MacOSX") :
    listing (installation sdks) (directoryOf ⟨"/"⟩ platform) = [] := by
  have hplatforms : IsEntry "Platforms" := ⟨by decide, by decide, by decide⟩
  have hthere : (installation sdks).node? ([] ++ ["Platforms"]) = some .directory := rfl
  obtain ⟨hentry, hpath, hnames, hnone⟩ : IsEntry (platform ++ ".platform") ∧ IsPath (directoryOf ⟨"/"⟩ platform) ∧
      names (directoryOf ⟨"/"⟩ platform) = ["", "Platforms", platform ++ ".platform", "Developer", "SDKs"] ∧
      (installation sdks).node? ([] ++ ["Platforms"] ++ [platform ++ ".platform"]) = none := by
    have hcases : platform = "AppleTVSimulator" ∨ platform = "WatchSimulator" ∨ platform = "iPhoneSimulator" := by
      simpa [platforms, hne] using hp
    have hlonger : ∀ name,
        (sdks.map fun name => (sdksDir ++ [name], Node.directory)).lookup ["Platforms", name] = none :=
      fun name => List.lookup_eq_none_iff.2 (by simp [sdksDir])
    obtain rfl | rfl | rfl := hcases <;>
      exact ⟨⟨by decide, by decide, by decide⟩, ⟨by decide, by decide, by decide⟩, by decide, hlonger _⟩
  have hstart : (installation sdks).start (directoryOf ⟨"/"⟩ platform) = [] := ite_self _
  have hlist : (installation sdks).list (directoryOf ⟨"/"⟩ platform) = .error .notFound := by
    rw [list, stat, locate, hpath.locateFrom, hnames, hstart, walk_skip _ _ _ _ _ (.inl rfl),
      walk_down _ _ _ hplatforms hthere, walk_vacant _ _ _ hentry hnone]
    rfl
  rw [listing, hlist]

theorem offers_installation {platform key : String} {name : Name} (hp : platform ∈ platforms)
    (h : Offers (installation sdks) ⟨"/"⟩ platform key name) :
    platform = "MacOSX" ∧ name ∈ sdks ∧ keyOf ⟨name⟩ = key := by
  obtain ⟨⟨hlisted, -⟩, hkey⟩ := offers_iff.1 h
  by_cases hmac : platform = "MacOSX"
  · subst hmac
    rw [listing_installation] at hlisted
    exact ⟨rfl, hlisted, hkey⟩
  · rw [listing_missing hp hmac] at hlisted
    exact absurd hlisted List.not_mem_nil

theorem prevails_installation {name : Name} (hn : name ∈ sdks) (hsdk : (Path.mk name).hasExtension "sdk" = true)
    (hgreatest : ∀ other ∈ sdks, keyOf ⟨other⟩ = keyOf ⟨name⟩ → other ≤ name) :
    Prevails (installation sdks) ⟨"/"⟩ (keyOf ⟨name⟩) (sdkPath name) := by
  have hlisted : name ∈ listing (installation sdks) (directoryOf ⟨"/"⟩ "MacOSX") := by rwa [listing_installation]
  refine ⟨["AppleTVSimulator"], "MacOSX", ["WatchSimulator", "iPhoneSimulator"], name, rfl,
    offers_iff.2 ⟨⟨hlisted, hsdk⟩, rfl⟩, fun other ho => ?_, fun later hl other ho => ?_, rfl⟩
  · obtain ⟨-, hmem, hkey⟩ := offers_installation (by decide) ho
    exact hgreatest other hmem hkey
  · obtain ⟨rfl, -, -⟩ := offers_installation (List.mem_cons_of_mem _ (List.mem_cons_of_mem _ hl)) ho
    exact absurd hl (by decide)

def twoVersions : List Name := ["MacOSX10.11.sdk", "MacOSX10.10.sdk"]

end Sample

section
open Sample

/-- With two versions and no plain SDK the alias stands for the later one; a plain SDK is found itself. -/
theorem table_of_platforms_two :
    table { installation twoVersions with nodes := (installation twoVersions).nodes.reverse } ⟨"/"⟩ =
      table (installation twoVersions) ⟨"/"⟩ ∧
    table (installation twoVersions.reverse) ⟨"/"⟩ = table (installation twoVersions) ⟨"/"⟩ ∧
    find? (installation twoVersions) ⟨"/"⟩ "macOSX10.10" = some (sdkPath "MacOSX10.10.sdk") ∧
    find? (installation twoVersions) ⟨"/"⟩ "MacOSX" = some (sdkPath "MacOSX10.11.sdk") ∧
    find? (installation ("MacOSX.sdk" :: twoVersions)) ⟨"/"⟩ "MacOSX" = some (sdkPath "MacOSX.sdk") ∧
    (sdkPath "MacOSX10.10.sdk").Precedes (sdkPath "MacOSX10.11.sdk") := by
  obtain ⟨hperm, hlisting, -, hkeys, horder, -, halias, hfind⟩ := table_of_platforms (installation twoVersions) ⟨"/"⟩
  obtain ⟨-, -, -, -, -, hplain, -, hfind'⟩ := table_of_platforms (installation ("MacOSX.sdk" :: twoVersions)) ⟨"/"⟩
  have hkey11 : keyOf ⟨"MacOSX10.11.sdk"⟩ = "macosx10.11" := by decide +kernel
  have hkey10 : keyOf ⟨"MacOSX10.10.sdk"⟩ = "macosx10.10" := by decide +kernel
  have hkey : keyOf ⟨"MacOSX.sdk"⟩ = aliasName := by decide +kernel
  have hlower : lowercase "MacOSX" = aliasName := by decide +kernel
  have hlower10 : lowercase "macOSX10.10" = "macosx10.10" := by decide +kernel
  refine ⟨?_, ?_, ?_, ?_, ?_, ?_⟩
  · exact hperm _ (by decide) (List.reverse_perm _)
  · refine hlisting _ fun platform hp name => ?_
    by_cases hmac : platform = "MacOSX"
    · rw [hmac, listing_installation, listing_installation, List.mem_reverse]
    · rw [listing_missing hp hmac, listing_missing hp hmac]
  · rw [hfind, hlower10, ← hkey10]
    refine ((hkeys _ (by rw [hkey10]; decide)).2 _).2 (prevails_installation (by decide) (by decide) ?_)
    simp [twoVersions, hkey10, hkey11]
  · have hversions : ∀ {key}, Offered (installation twoVersions) ⟨"/"⟩ key →
        key = "macosx10.11" ∨ key = "macosx10.10" := by
      rintro key ⟨platform, hp, name, ho⟩
      obtain ⟨-, hn, rfl⟩ := offers_installation hp ho
      simp only [twoVersions, List.mem_cons, List.not_mem_nil, or_false] at hn
      obtain rfl | rfl := hn
      · exact .inl hkey11
      · exact .inr hkey10
    have hno : ¬Offered (installation twoVersions) ⟨"/"⟩ aliasName := fun ho => absurd (hversions ho) (by decide)
    rw [hfind, hlower]
    refine ((halias hno).2 _).2 ⟨"macosx10.11", isVersioned_iff.1 (by decide), ?_, fun other _ ho => ?_⟩
    · rw [← hkey11]
      refine prevails_installation (by decide) (by decide) ?_
      simp [twoVersions, hkey10, hkey11]
    · obtain rfl | rfl := hversions ho <;> decide
  · have hprevails : Prevails (installation ("MacOSX.sdk" :: twoVersions)) ⟨"/"⟩ aliasName (sdkPath "MacOSX.sdk") := by
      rw [← hkey]
      refine prevails_installation List.mem_cons_self (by decide) ?_
      simp [twoVersions, hkey, hkey10, hkey11, aliasName]
    rw [hfind', hlower]
    exact (hplain (exists_prevails_iff.1 ⟨_, hprevails⟩) _).2 hprevails
  · refine (horder _ ⟨by decide, by decide, by decide, by decide⟩ ⟨by decide, by decide, by decide, by decide⟩).2 ?_
    decide

end
end Recheck.Sdk
