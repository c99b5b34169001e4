import Maskura.Iceberg.Store

/-!
Which table a key belongs to. The layout probe walks up from the key and asks
at each directory whether the store has table metadata below it. Processed
requests to a part of a table are refused, so a part that the probe misses is
treated as a plain object.
-/

namespace Maskura.Iceberg

open Maskura.Lib Maskura.Lib.Text

/-- The most ancestors of a request key the layout probe walks. -/
def maxProbeDepth : ℕ := 8

inductive TableTarget
  | rootMetadata (root : TableRoot) (version : ℕ)
  | subUnit (root : TableRoot)
  | none
  deriving DecidableEq, Repr

/-- The table a target is in. -/
def TableTarget.root? : TableTarget → Option TableRoot
  | rootMetadata root _ | subUnit root => some root
  | none => Option.none

/-- A name that marks its directory as the metadata of a table. -/
def isTableMarker (name : Key) : Bool := name = versionHintName ∨ metadataSuffix <:+ name

/-- The probe of the directories above what remains of the key. -/
def probe : ℕ → Key → TableStore (List TableRoot)
  | 0, _ => pure []
  | n + 1, remainder =>
      match rsplitOnce '/' remainder with
      | none => pure []
      | some (above, _) => do
          let keys ← TableStore.list (above ++ '/' :: metadataDir)
          let roots ← probe n above
          if keys.any fun candidate => isTableMarker (baseName candidate) then
            pure (⟨[], above ++ ['/']⟩ :: roots)
          else pure roots

def enclosingTableRoots (key : Key) : TableStore (List TableRoot) := probe maxProbeDepth key

/-- The root that a key names by being called like a table document. -/
def documentRoot (bucket key : Key) : Option (TableRoot × ℕ) := do
  guard (keyShape key).metadataJsonName
  let root ← tableRootForMetadataKey bucket key
  let version ← metadataFileVersion key
  return (root, version)

/-- The target of a key, given the roots that enclose it. -/
def targetOf (bucket key : Key) (roots : List TableRoot) : Except MaskuraError TableTarget :=
  match documentRoot bucket key with
  | some (named, version) =>
      if roots.any fun root => root.keyPrefix ≠ named.keyPrefix then
        .error (unsupportedTableOperation ("key " ++ quoted key ++
          " names a table root that conflicts with an enclosing table layout"))
      else .ok (.rootMetadata named version)
  | none =>
      match roots with
      | [] => .ok .none
      | [root] => .ok (.subUnit root)
      | _ => .error (unsupportedTableOperation ("key " ++ quoted key ++ " is enclosed by " ++
          toString roots.length ++
          " table roots (nested tables); conflicting signals are rejected"))

/-- The layouts that are refused by the name of the key alone. -/
def refusedLayout (key : Key) (claimsTable : Bool) : Except MaskuraError Unit := do
  rejectIf (keyShape key).deltaLogDir (unsupportedFormat
    "Delta table layouts (_delta_log) are not supported; never guessed")
  rejectIf ((keyShape key).hivePartitionSegment ∧ claimsTable) (unsupportedFormat
    "Hive table layouts (field=value partition directories) are not supported; never guessed")

def classifyKey (bucket key : Key) (claimsTable : Bool) : TableStore TableTarget := do
  Prog.ofExcept (refusedLayout key claimsTable)
  let roots ← enclosingTableRoots key
  Prog.ofExcept (targetOf bucket key (roots.map fun root => { root with bucket := bucket }))

/-! ### What the probe finds -/

/-- The store has table metadata somewhere below this directory's `metadata/`. -/
def HasMarker (objects : Objects) (directory : Key) : Prop :=
  ∃ key ∈ objects, directory ++ metadataDir <+: key ∧ isTableMarker (baseName key) = true

instance (objects : Objects) (directory : Key) : Decidable (HasMarker objects directory) :=
  decidable_of_iff (objects.keys.any fun key =>
    decide (directory ++ metadataDir <+: key) && isTableMarker (baseName key)) (by
      simp [HasMarker, AList.mem_keys])

/-- The roots the probe finds in a store, if no listing fails. -/
def probed (objects : Objects) : ℕ → Key → List TableRoot
  | 0, _ => []
  | n + 1, remainder =>
      match rsplitOnce '/' remainder with
      | none => []
      | some (above, _) =>
          if HasMarker objects (above ++ ['/']) then
            ⟨[], above ++ ['/']⟩ :: probed objects n above
          else probed objects n above

theorem any_listing {objects : Objects} {above : Key} :
    ((objects.listing (above ++ '/' :: metadataDir)).any fun candidate =>
        isTableMarker (baseName candidate)) = true ↔ HasMarker objects (above ++ ['/']) := by
  simp only [List.any_eq_true, mem_listing, HasMarker, and_assoc, List.append_assoc,
    List.singleton_append]

theorem probe_reads (objects : Objects) (n : ℕ) (key : Key) :
    Reads (probe n key) objects (.ok (probed objects n key)) := by
  induction n generalizing key with
  | zero => exact .pure []
  | succ n ih =>
      rw [probe, probed]
      cases rsplitOnce '/' key with
      | none => exact .pure []
      | some cut =>
          refine (Reads.list _).bind (g := fun _ => _) fun keys hkeys => ?_
          obtain rfl := Except.ok.inj hkeys
          refine (ih cut.1).bind (g := fun _ => _) fun roots hroots => ?_
          obtain rfl := Except.ok.inj hroots
          simp only [any_listing]
          split
          · exact .pure _
          · exact .pure _

/-- The probe sees as many directories as it has steps: those with fewer slashes
behind them. -/
theorem probed_ne_nil {objects : Objects} {n : ℕ} {key : Key} :
    probed objects n key ≠ [] ↔ ∃ above rest, key = above ++ '/' :: rest ∧
      rest.count '/' < n ∧ HasMarker objects (above ++ ['/']) := by
  induction n generalizing key with
  | zero => simp [probed]
  | succ n ih =>
      rw [probed]
      cases hcut : rsplitOnce '/' key with
      | none =>
          have hnone := rsplitOnce_eq_none.mp hcut
          refine iff_of_false (by simp) ?_
          rintro ⟨above, rest, rfl, -⟩
          simp at hnone
      | some cut =>
          obtain ⟨last, name⟩ := cut
          obtain ⟨rfl, hname⟩ := rsplitOnce_eq_some.mp hcut
          have hcount : name.count '/' = 0 := List.count_eq_zero.mpr hname
          by_cases hmarker : HasMarker objects (last ++ ['/'])
          · simp only [if_pos hmarker]
            exact iff_of_true (List.cons_ne_nil _ _) ⟨last, name, rfl, by omega, hmarker⟩
          · simp only [if_neg hmarker]
            rw [ih]
            constructor
            · rintro ⟨above, rest, rfl, hrest, hfound⟩
              refine ⟨above, rest ++ '/' :: name, by simp, ?_, hfound⟩
              rw [List.count_append, List.count_cons_self]
              omega
            · rintro ⟨above, rest, hsplit, hrest, hfound⟩
              -- The directory is not the last one, so the last slash is behind its own.
              obtain ⟨middle, rfl, rfl⟩ : ∃ middle, last = above ++ '/' :: middle ∧
                  rest = middle ++ '/' :: name := by
                rcases List.append_eq_append_iff.mp hsplit with ⟨t, rfl, ht⟩ | ⟨t, rfl, ht⟩
                · cases t with
                  | nil => exact absurd hfound (by simpa using hmarker)
                  | cons c t =>
                      obtain ⟨rfl, hname'⟩ := List.cons.inj ht
                      simp [hname'] at hname
                · cases t with
                  | nil => exact absurd hfound (by simpa using hmarker)
                  | cons c t =>
                      obtain ⟨rfl, hrest'⟩ := List.cons.inj ht
                      exact ⟨t, rfl, hrest'⟩
              refine ⟨above, middle, rfl, ?_, hfound⟩
              rw [List.count_append, List.count_cons_self] at hrest
              omega

/-- Empty, or up to a slash. -/
def IsDirectory (key : Key) : Prop := key = [] ∨ key.getLast? = some '/'

instance (key : Key) : Decidable (IsDirectory key) := inferInstanceAs (Decidable (_ ∨ _))

theorem probed_directory {objects : Objects} {n : ℕ} {key : Key} {root : TableRoot}
    (h : root ∈ probed objects n key) : IsDirectory root.keyPrefix ∧ root.keyPrefix <+: key := by
  induction n generalizing key with
  | zero => simp [probed] at h
  | succ n ih =>
      rw [probed] at h
      cases hcut : rsplitOnce '/' key with
      | none => simp [hcut] at h
      | some cut =>
          obtain ⟨above, name⟩ := cut
          obtain ⟨rfl, -⟩ := rsplitOnce_eq_some.mp hcut
          simp only [hcut] at h
          have hdeeper : root ∈ probed objects n above →
              IsDirectory root.keyPrefix ∧ root.keyPrefix <+: above ++ '/' :: name := fun hmem =>
            ⟨(ih hmem).1, (ih hmem).2.trans (List.prefix_append _ _)⟩
          split at h
          · rcases List.mem_cons.mp h with rfl | hmem
            · exact ⟨.inr (by simp), name, by simp⟩
            · exact hdeeper hmem
          · exact hdeeper h

/-! ### Parts of a table -/

/-- The store has the pointer or a document of a table directly under this
directory's `metadata/`. -/
def IsTableRoot (objects : Objects) (directory : Key) : Prop :=
  ∃ name, '/' ∉ name ∧ isTableMarker name = true ∧ directory ++ metadataDir ++ name ∈ objects

/-- Some directory above the key is a table root. -/
def Enclosed (objects : Objects) (key : Key) : Prop :=
  ∃ directory, IsDirectory directory ∧ directory <+: key ∧ IsTableRoot objects directory

/-- A part of a table is not taken for a plain object, and a root that is given
is a directory above the key. -/
structure NeverPlain (objects : Objects) (bucket key : Key) (claimsTable : Bool) : Prop where
  detected : Enclosed objects key → ∀ choices,
    ((classifyKey bucket key claimsTable).run.run answer choices objects).1 ≠ some (.ok .none)
  rooted : ∀ choices target root,
    ((classifyKey bucket key claimsTable).run.run answer choices objects).1 = some (.ok target) →
      target.root? = some root → IsDirectory root.keyPrefix ∧ root.keyPrefix <+: key

/-- The layout is refused by name; or one of the nearest eight directories above
the key has table metadata; or the key is a document under its own root; or
it is in no table. -/
def Detectable (objects : Objects) (bucket key : Key) (claimsTable : Bool) : Prop :=
  (keyShape key).deltaLogDir = true ∨
    ((keyShape key).hivePartitionSegment = true ∧ claimsTable = true) ∨
    (∃ above rest, key = above ++ '/' :: rest ∧ rest.count '/' < maxProbeDepth ∧
      HasMarker objects (above ++ ['/'])) ∨
    match documentRoot bucket key with
    | some (named, _) => IsDirectory named.keyPrefix
    | none => ¬Enclosed objects key

/-- The classification if no listing fails. -/
def classified (objects : Objects) (bucket key : Key) (claimsTable : Bool) :
    Except MaskuraError TableTarget := do
  refusedLayout key claimsTable
  targetOf bucket key ((probed objects maxProbeDepth key).map fun root =>
    { root with bucket := bucket })

theorem classifyKey_reads (objects : Objects) (bucket key : Key) (claimsTable : Bool) :
    Reads (classifyKey bucket key claimsTable) objects
      (classified objects bucket key claimsTable) := by
  refine (Reads.ofExcept _).bind fun _ _ => ?_
  refine (probe_reads objects maxProbeDepth key).bind (g := fun _ => _) fun roots hroots => ?_
  obtain rfl := Except.ok.inj hroots
  exact .ofExcept _

/-- What holds of every run holds of the result without failures. -/
theorem neverPlain_iff_classified {objects : Objects} {bucket key : Key} {claimsTable : Bool} :
    NeverPlain objects bucket key claimsTable ↔
      (Enclosed objects key → classified objects bucket key claimsTable ≠ .ok .none) ∧
        ∀ target root, classified objects bucket key claimsTable = .ok target →
          target.root? = some root → IsDirectory root.keyPrefix ∧ root.keyPrefix <+: key := by
  have hreads := classifyKey_reads objects bucket key claimsTable
  obtain ⟨quiet, hquiet⟩ := hreads.exists_run
  have hresult : ∀ choices target,
      ((classifyKey bucket key claimsTable).run.run answer choices objects).1 =
        some (.ok target) → classified objects bucket key claimsTable = .ok target := by
    intro choices target hrun
    rcases hreads.result hrun with heq | ⟨e, he⟩
    · exact heq.symm
    · cases he
  constructor
  · rintro ⟨hdetected, hrooted⟩
    exact ⟨fun henclosed hnone => hdetected henclosed quiet (hnone ▸ hquiet),
      fun target root htarget => hrooted quiet target root (htarget ▸ hquiet)⟩
  · rintro ⟨hdetected, hrooted⟩
    exact ⟨fun henclosed choices hrun => hdetected henclosed (hresult choices _ hrun),
      fun choices target root hrun => hrooted target root (hresult choices target hrun)⟩

/-- A result that is neither a plain object nor in a root that is no directory
above the key. -/
def Safe (key : Key) (result : Except MaskuraError TableTarget) : Prop :=
  result ≠ .ok .none ∧ ∀ target root, result = .ok target → target.root? = some root →
    IsDirectory root.keyPrefix ∧ root.keyPrefix <+: key

theorem Safe.error (key : Key) (e : MaskuraError) : Safe key (.error e) :=
  ⟨nofun, fun _ _ h => nomatch h⟩

theorem Safe.of_root {key : Key} {target : TableTarget} {root : TableRoot}
    (hroot : target.root? = some root) (hdirectory : IsDirectory root.keyPrefix)
    (habove : root.keyPrefix <+: key) : Safe key (.ok target) := by
  refine ⟨?_, ?_⟩
  · rintro ⟨⟩
    cases hroot
  · rintro _ root' ⟨⟩ hroot'
    obtain rfl := Option.some.inj (hroot.symm.trans hroot')
    exact ⟨hdirectory, habove⟩

/-- With an enclosing root at hand every outcome is safe: it is that root, or a
conflict. -/
theorem targetOf_safe {bucket key : Key} {roots : List TableRoot} (hroots : roots ≠ [])
    (habove : ∀ root ∈ roots, IsDirectory root.keyPrefix ∧ root.keyPrefix <+: key) :
    Safe key (targetOf bucket key roots) := by
  obtain ⟨first, rest, rfl⟩ := List.exists_cons_of_ne_nil hroots
  have hfirst := habove first List.mem_cons_self
  unfold targetOf
  split
  · next named version hnamed =>
    split
    · exact .error _ _
    · next hagree =>
      have hsame : first.keyPrefix = named.keyPrefix := by
        simp only [List.any_cons, Bool.or_eq_true, decide_eq_true_eq, not_or, not_not] at hagree
        exact hagree.1
      exact .of_root rfl (hsame ▸ hfirst.1) (hsame ▸ hfirst.2)
  · cases rest with
    | nil => exact .of_root rfl hfirst.1 hfirst.2
    | cons second rest => exact .error _ _

theorem documentRoot_above {bucket key : Key} {named : TableRoot} {version : ℕ}
    (h : documentRoot bucket key = some (named, version)) : named.keyPrefix <+: key := by
  simp only [documentRoot, Option.bind_eq_bind, Option.bind_eq_some_iff] at h
  obtain ⟨-, -, root, hroot, _, -, hsame⟩ := h
  obtain ⟨rfl, -⟩ := Prod.mk.inj (Option.some.inj hsame)
  exact (tableRootForMetadataKey_eq_some hroot).2

/-- Without one, a document is in the root that it names, and anything else is
taken for a plain object. -/
theorem targetOf_nil (bucket key : Key) :
    targetOf bucket key [] = match documentRoot bucket key with
      | some (named, version) => .ok (.rootMetadata named version)
      | none => .ok .none := by
  unfold targetOf
  split <;> rfl

theorem refusedLayout_eq_ok {key : Key} {claimsTable : Bool} :
    refusedLayout key claimsTable = .ok () ↔ ¬((keyShape key).deltaLogDir = true ∨
      ((keyShape key).hivePartitionSegment = true ∧ claimsTable = true)) := by
  simp [refusedLayout, bind_eq_ok, not_or]

/-- The classification keeps parts of a table from being plain objects exactly
where the table can be detected. -/
theorem neverPlain_iff_detectable (objects : Objects) (bucket key : Key) (claimsTable : Bool) :
    NeverPlain objects bucket key claimsTable ↔ Detectable objects bucket key claimsTable := by
  rw [neverPlain_iff_classified, classified, Detectable, ← or_assoc]
  -- A refused layout and a root found by the probe leave nothing to show.
  have hsafe : ∀ {result}, Safe key result → (Enclosed objects key → result ≠ .ok .none) ∧
      ∀ target root, result = .ok target → target.root? = some root →
        IsDirectory root.keyPrefix ∧ root.keyPrefix <+: key :=
    fun h => ⟨fun _ => h.1, h.2⟩
  by_cases hrefused : (keyShape key).deltaLogDir = true ∨
      ((keyShape key).hivePartitionSegment = true ∧ claimsTable = true)
  · refine iff_of_true (hsafe ?_) (.inl hrefused)
    cases hlayout : refusedLayout key claimsTable with
    | error e => exact .error _ _
    | ok u => exact absurd hrefused (refusedLayout_eq_ok.mp hlayout)
  rw [refusedLayout_eq_ok.mpr hrefused, ok_bind, ← probed_ne_nil]
  by_cases hprobed : probed objects maxProbeDepth key = []
  · rw [hprobed, List.map_nil, targetOf_nil]
    have hnear : ¬[] ≠ ([] : List TableRoot) := fun h => h rfl
    simp only [hrefused, hnear, false_or]
    cases hdocument : documentRoot bucket key with
    | none =>
        refine ⟨fun h henclosed => h.1 henclosed rfl, fun hfree => ⟨fun h => absurd h hfree, ?_⟩⟩
        rintro _ root ⟨⟩ hroot
        cases hroot
    | some named =>
        simp only [Except.ok.injEq, reduceCtorEq, ne_eq, not_false_eq_true, implies_true, true_and]
        constructor
        · exact fun h => (h _ named.1 rfl rfl).1
        · rintro hdirectory _ root rfl hroot
          obtain rfl := Option.some.inj hroot
          exact ⟨hdirectory, documentRoot_above hdocument⟩
  · refine iff_of_true (hsafe (targetOf_safe ?_ ?_)) (.inr (.inl hprobed))
    · simpa using hprobed
    · intro root hroot
      obtain ⟨found, hfound, rfl⟩ := List.mem_map.mp hroot
      have hdirectory := probed_directory hfound
      exact hdirectory

/-- A bucket that has only this object. -/
def soleObject (key : String) : Objects := AList.singleton key.toList []

/-- The probe misses the table at the top of a bucket, and a table more than
eight directories up; and it takes `metadata/x` for the root of a document
under `metadata/xmetadata/`. -/
theorem table_parts_taken_for_plain :
    ¬NeverPlain (soleObject "metadata/version-hint.text") "bucket".toList
        "data/x.parquet".toList false ∧
      ¬NeverPlain (soleObject "t/metadata/version-hint.text") "bucket".toList
        "t/1/2/3/4/5/6/7/8/x.parquet".toList false ∧
      ¬NeverPlain (soleObject "plain") "bucket".toList
        "metadata/xmetadata/00001-a.metadata.json".toList false := by
  refine ⟨fun h => ?_, fun h => ?_, fun h => ?_⟩
  · refine (neverPlain_iff_classified.mp h).1 ⟨[], .inl rfl, List.nil_prefix, ?_⟩ (by decide)
    exact ⟨versionHintName, by decide, by decide, by decide⟩
  · refine (neverPlain_iff_classified.mp h).1 ⟨"t/".toList, .inr rfl, by decide, ?_⟩ (by decide)
    exact ⟨versionHintName, by decide, by decide, by decide⟩
  · have hroot := (neverPlain_iff_classified.mp h).2
      (.rootMetadata ⟨"bucket".toList, "metadata/x".toList⟩ 1) _ (by decide) rfl
    exact absurd hroot.1 (by decide)

end Maskura.Iceberg
