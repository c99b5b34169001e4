import Maskura.Lib.Sorted
import Maskura.Listing.Common
import Maskura.Multipart.Store

/-!
Listing multipart uploads. The lines of a listing, uploads and common prefixes, share
one map, ordered by key and upload id; a page is the start of the map, and the key of
its last line is where the next page goes on. Following the pages shows every line
once.
-/

namespace Maskura.Listing

open Maskura.Lib Maskura.Lib.Text
open Maskura.Multipart (MultipartUpload StagingError)

/-! ### The code -/

def maxMultipartUploadsPage : ℕ := 1000

/-- What the listing reads of a request. -/
structure ListMultipartUploadsRequest where
  keyPrefix : Text
  delimiter : Option Text
  keyMarker : Option Text
  uploadIdMarker : Option Text
  maxUploads : ℕ
  deriving DecidableEq

structure ListMultipartUploadsPage where
  uploads : List MultipartUpload
  commonPrefixes : List Text
  isTruncated : Bool
  nextKeyMarker : Option Text
  nextUploadIdMarker : Option Text

inductive MultipartListingEntry
  | upload (upload : MultipartUpload)
  | commonPrefix (name : Text)

/-- `(String, Option<String>)`: no upload id comes before every upload id. -/
structure EntryKey where
  key : Text
  uploadId : Option Text
  deriving DecidableEq

/-- The pair as it is compared. -/
def EntryKey.lex (entry : EntryKey) : Text ×ₗ WithBot Text :=
  toLex (entry.key, entry.uploadId.elim ⊥ WithBot.some)

theorem EntryKey.lex_injective : Function.Injective EntryKey.lex := by
  rintro ⟨key, id⟩ ⟨key', id'⟩ h
  obtain ⟨rfl, hid⟩ := Prod.mk.inj (toLex.injective h)
  cases id with
  | none =>
      cases id' with
      | none => rfl
      | some id' => exact absurd hid.symm WithBot.coe_ne_bot
  | some id =>
      cases id' with
      | none => exact absurd hid WithBot.coe_ne_bot
      | some id' => rw [WithBot.coe_inj.mp hid]

instance : LinearOrder EntryKey := LinearOrder.lift' EntryKey.lex EntryKey.lex_injective

instance : Std.LawfulEqOrd EntryKey where
  eq_of_compare := compare_eq_iff_eq.mp

def uploadKey (upload : MultipartUpload) : EntryKey :=
  ⟨upload.identity.key.toList, some upload.identity.uploadId.toList⟩

/-- The line comes behind the markers. -/
def afterMarker (request : ListMultipartUploadsRequest) (line : EntryKey) : Bool :=
  match request.keyMarker with
  | none => true
  | some marker =>
      if marker < line.key then true
      else if line.key = marker then
        match request.uploadIdMarker, line.uploadId with
        | some uploadMarker, some id => uploadMarker < id
        | _, _ => false
      else false

/-- The common prefix that stands for a key, if the request has a delimiter and the key
has it behind the prefix. -/
def commonFor (request : ListMultipartUploadsRequest) (key : Text) : Option Text :=
  request.delimiter.bind fun delimiter => commonOf request.keyPrefix delimiter key

/-- One upload of the loop. Uploads below a common prefix are shown as that prefix. -/
def addUpload (request : ListMultipartUploadsRequest)
    (entries : Std.TreeMap EntryKey MultipartListingEntry) (upload : MultipartUpload) :
    Std.TreeMap EntryKey MultipartListingEntry :=
  if request.keyPrefix <+: upload.identity.key.toList then
    match commonFor request upload.identity.key.toList with
    | some common =>
        if afterMarker request ⟨common, none⟩ then
          entries.insertIfNew ⟨common, none⟩ (.commonPrefix common)
        else entries
    | none =>
        if afterMarker request (uploadKey upload) then
          entries.insert (uploadKey upload) (.upload upload)
        else entries
  else entries

def collectEntries (uploads : List MultipartUpload) (request : ListMultipartUploadsRequest) :
    Std.TreeMap EntryKey MultipartListingEntry :=
  (uploads.insertionSort fun left right => uploadKey left ≤ uploadKey right).foldl
    (addUpload request) ∅

def MultipartListingEntry.asUpload : MultipartListingEntry → Option MultipartUpload
  | .upload listed => some listed
  | .commonPrefix _ => none

def MultipartListingEntry.asCommonPrefix : MultipartListingEntry → Option Text
  | .upload _ => none
  | .commonPrefix name => some name

/-- The page of so many entries. -/
def pageOf (entries : List (EntryKey × MultipartListingEntry))
    (request : ListMultipartUploadsRequest) (maxUploads : ℕ) : ListMultipartUploadsPage :=
  let isTruncated : Bool := maxUploads < entries.length
  let selected := entries.take maxUploads
  let next :=
    if isTruncated then
      match selected.getLast? with
      | some (line, _) => (some line.key, line.uploadId)
      | none => (request.keyMarker, request.uploadIdMarker)
    else (none, none)
  { uploads := selected.filterMap fun (_, entry) => entry.asUpload
    commonPrefixes := selected.filterMap fun (_, entry) => entry.asCommonPrefix
    isTruncated := isTruncated
    nextKeyMarker := next.1
    nextUploadIdMarker := next.2 }

def paginateMultipartUploads (uploads : List MultipartUpload)
    (request : ListMultipartUploadsRequest) : Except StagingError ListMultipartUploadsPage := do
  rejectIf (maxMultipartUploadsPage < request.maxUploads ∨
    (request.uploadIdMarker.isSome ∧ request.keyMarker.isNone) ∨ request.delimiter = some [])
    .invalidListing
  return pageOf (collectEntries uploads request).toList request request.maxUploads

/-- What a client gets that follows the markers until a page is the last. -/
def followUploads (uploads : List MultipartUpload) :
    (fuel : ℕ) → ListMultipartUploadsRequest →
      Except StagingError (Option (List ListMultipartUploadsPage))
  | 0, _ => .ok none
  | fuel + 1, request => do
      let page ← paginateMultipartUploads uploads request
      if page.isTruncated then
        let rest ← followUploads uploads fuel
          { request with
            keyMarker := page.nextKeyMarker
            uploadIdMarker := page.nextUploadIdMarker }
        return rest.map (page :: ·)
      else return some [page]

/-- One page without a bound. -/
def unboundedPage (uploads : List MultipartUpload) (request : ListMultipartUploadsRequest) :
    ListMultipartUploadsPage :=
  pageOf (collectEntries uploads request).toList request (collectEntries uploads request).toList.length

/-! ### Lines -/

def MultipartListingEntry.position : MultipartListingEntry → EntryKey
  | .upload listed => uploadKey listed
  | .commonPrefix name => ⟨name, none⟩

/-- The line that an upload is shown as, before the markers are looked at. -/
def lineOf (request : ListMultipartUploadsRequest) (upload : MultipartUpload) :
    Option MultipartListingEntry :=
  if request.keyPrefix <+: upload.identity.key.toList then
    match commonFor request upload.identity.key.toList with
    | some common => some (.commonPrefix common)
    | none => some (.upload upload)
  else none

/-- The map has these lines, each at its place. -/
def Holds (entries : Std.TreeMap EntryKey MultipartListingEntry)
    (lines : Set MultipartListingEntry) : Prop :=
  ∀ key line, entries[key]? = some line ↔ line.position = key ∧ line ∈ lines

section Lines

variable {request : ListMultipartUploadsRequest} {uploads : List MultipartUpload}
  {entries : Std.TreeMap EntryKey MultipartListingEntry} {lines : Set MultipartListingEntry}

theorem EntryKey.lt_iff {a b : EntryKey} :
    a < b ↔ a.key < b.key ∨
      a.key = b.key ∧ (a.uploadId.elim ⊥ WithBot.some : WithBot Text) < b.uploadId.elim ⊥ WithBot.some :=
  Prod.Lex.lt_iff

theorem lineOf_eq_upload {upload listed : MultipartUpload} :
    lineOf request upload = some (.upload listed) ↔
      upload = listed ∧ request.keyPrefix <+: upload.identity.key.toList ∧
        commonFor request upload.identity.key.toList = none := by
  unfold lineOf
  by_cases hunder : request.keyPrefix <+: upload.identity.key.toList
  · cases commonFor request upload.identity.key.toList <;> simp [hunder]
  · simp [hunder]

theorem lineOf_eq_commonPrefix {upload : MultipartUpload} {name : Text} :
    lineOf request upload = some (.commonPrefix name) ↔
      request.keyPrefix <+: upload.identity.key.toList ∧
        commonFor request upload.identity.key.toList = some name := by
  unfold lineOf
  by_cases hunder : request.keyPrefix <+: upload.identity.key.toList
  · cases commonFor request upload.identity.key.toList <;> simp [hunder]
  · simp [hunder]

/-- A key that is a common prefix has itself as its common prefix. -/
theorem commonFor_self {key name : Text} (h : commonFor request key = some name) :
    commonFor request name = some name := by
  obtain ⟨delimiter, hdelimiter, hcommon⟩ := Option.bind_eq_some_iff.mp h
  rw [commonFor, hdelimiter]
  exact commonOf_of_isPrefix hcommon (List.prefix_refl name)

/-- The lines of the uploads. -/
def Shown (request : ListMultipartUploadsRequest) (uploads : List MultipartUpload)
    (line : MultipartListingEntry) : Prop :=
  ∃ upload ∈ uploads, lineOf request upload = some line

/-- Lines at one place are the same line. -/
theorem Shown.unique (hdistinct : (uploads.map uploadKey).Nodup)
    {line other : MultipartListingEntry} (hline : Shown request uploads line)
    (hother : Shown request uploads other) (h : line.position = other.position) : line = other := by
  obtain ⟨a, ha, hline⟩ := hline
  obtain ⟨b, hb, hother⟩ := hother
  cases line with
  | upload listed =>
      obtain ⟨rfl, -⟩ := lineOf_eq_upload.mp hline
      cases other with
      | upload listed' =>
          obtain ⟨rfl, -⟩ := lineOf_eq_upload.mp hother
          rw [List.inj_on_of_nodup_map hdistinct ha hb h]
      | commonPrefix name => cases congrArg EntryKey.uploadId h
  | commonPrefix name =>
      cases other with
      | upload listed' => cases congrArg EntryKey.uploadId h
      | commonPrefix name' =>
          obtain rfl : name = name' := congrArg EntryKey.key h
          rfl

/-- Putting a line at its place, as the loop does for both kinds of lines. -/
def putLine (entries : Std.TreeMap EntryKey MultipartListingEntry) :
    MultipartListingEntry → Std.TreeMap EntryKey MultipartListingEntry
  | .upload listed => entries.insert (uploadKey listed) (.upload listed)
  | .commonPrefix name => entries.insertIfNew ⟨name, none⟩ (.commonPrefix name)

theorem addUpload_eq (upload : MultipartUpload) :
    addUpload request entries upload =
      match lineOf request upload with
      | some line => if afterMarker request line.position then putLine entries line else entries
      | none => entries := by
  unfold addUpload lineOf
  by_cases hunder : request.keyPrefix <+: upload.identity.key.toList
  · simp only [if_pos hunder]
    cases commonFor request upload.identity.key.toList <;> rfl
  · simp only [if_neg hunder]

theorem Holds.putLine {line : MultipartListingEntry} (h : Holds entries lines)
    (hunique : ∀ other ∈ lines, other.position = line.position → other = line) :
    Holds (putLine entries line) (insert line lines) := by
  have hplace : ∀ other, entries[line.position]? = some other → other = line := by
    intro other hother
    obtain ⟨hposition, hmem⟩ := (h _ _).mp hother
    exact hunique other hmem hposition
  have hput : ∀ key, (Listing.putLine entries line)[key]? =
      if line.position = key then some line else entries[key]? := by
    intro key
    cases line with
    | upload listed => exact FinMap.getElem?_insert_eq _ _ _ _
    | commonPrefix name =>
        refine (FinMap.getElem?_insertIfNew_eq _ _ _ _).trans ?_
        by_cases hkey : (⟨name, none⟩ : EntryKey) = key
        · subst hkey
          cases hold : entries[(⟨name, none⟩ : EntryKey)]? with
          | none => simp [MultipartListingEntry.position]
          | some other => simp [MultipartListingEntry.position, hplace other hold]
        · rw [if_neg (fun hand => hkey hand.1)]
          exact (if_neg hkey).symm
  intro key other
  rw [hput, Set.mem_insert_iff]
  by_cases hkey : line.position = key
  · rw [if_pos hkey]
    constructor
    · intro hsome
      obtain rfl := Option.some.inj hsome
      exact ⟨hkey, .inl rfl⟩
    · rintro ⟨hposition, rfl | hmem⟩
      · rfl
      · rw [hunique other hmem (hposition.trans hkey.symm)]
  · rw [if_neg hkey, h]
    constructor
    · rintro ⟨hposition, hmem⟩
      exact ⟨hposition, .inr hmem⟩
    · rintro ⟨hposition, rfl | hmem⟩
      · exact absurd hposition hkey
      · exact ⟨hposition, hmem⟩

/-- The lines that are shown behind the markers. -/
def visibleLines (request : ListMultipartUploadsRequest) (uploads : List MultipartUpload) :
    Set MultipartListingEntry :=
  {line | Shown request uploads line ∧ afterMarker request line.position}

theorem shown_append {done : List MultipartUpload} {upload : MultipartUpload}
    {line : MultipartListingEntry} :
    Shown request (done ++ [upload]) line ↔
      Shown request done line ∨ lineOf request upload = some line := by
  simp [Shown, or_and_right, exists_or]

theorem Shown.mono {done : List MultipartUpload} {line : MultipartListingEntry}
    (h : Shown request done line) (hdone : done ⊆ uploads) : Shown request uploads line := by
  obtain ⟨upload, hupload, hline⟩ := h
  exact ⟨upload, hdone hupload, hline⟩

/-- One upload more. -/
theorem Holds.addUpload (hdistinct : (uploads.map uploadKey).Nodup) {done : List MultipartUpload}
    {upload : MultipartUpload} (hdone : done ⊆ uploads) (hupload : upload ∈ uploads)
    (h : Holds entries (visibleLines request done)) :
    Holds (addUpload request entries upload) (visibleLines request (done ++ [upload])) := by
  rw [addUpload_eq]
  cases hline : lineOf request upload with
  | none =>
      have hsame : visibleLines request (done ++ [upload]) = visibleLines request done := by
        ext line
        simp [visibleLines, shown_append, hline]
      rwa [hsame]
  | some line =>
      by_cases hafter : afterMarker request line.position
      · have hmore : visibleLines request (done ++ [upload]) =
            insert line (visibleLines request done) := by
          ext other
          simp only [visibleLines, shown_append, hline, Set.mem_ofPred_eq, Set.mem_insert_iff,
            Option.some.injEq]
          constructor
          · rintro ⟨hshown | rfl, hother⟩
            · exact .inr ⟨hshown, hother⟩
            · exact .inl rfl
          · rintro (rfl | ⟨hshown, hother⟩)
            · exact ⟨.inr rfl, hafter⟩
            · exact ⟨.inl hshown, hother⟩
        simp only [if_pos hafter]
        rw [hmore]
        exact h.putLine fun other hother hposition =>
          Shown.unique hdistinct (hother.1.mono hdone) ⟨upload, hupload, hline⟩ hposition
      · have hsame : visibleLines request (done ++ [upload]) = visibleLines request done := by
          ext other
          simp only [visibleLines, shown_append, hline, Set.mem_ofPred_eq, Option.some.injEq]
          constructor
          · rintro ⟨hshown | rfl, hother⟩
            · exact ⟨hshown, hother⟩
            · exact absurd hother hafter
          · rintro ⟨hshown, hother⟩
            exact ⟨.inl hshown, hother⟩
        simp only [if_neg hafter]
        rwa [hsame]

theorem Holds.foldl_addUpload (hdistinct : (uploads.map uploadKey).Nodup)
    {done rest : List MultipartUpload} (hdone : done ⊆ uploads) (hrest : rest ⊆ uploads)
    (h : Holds entries (visibleLines request done)) :
    Holds (rest.foldl (Listing.addUpload request) entries) (visibleLines request (done ++ rest)) := by
  induction rest generalizing done entries with
  | nil => rwa [List.append_nil]
  | cons upload rest ih =>
      obtain ⟨hupload, hrest⟩ := List.cons_subset.mp hrest
      rw [List.append_cons]
      exact ih (List.append_subset.mpr ⟨hdone, List.cons_subset.mpr ⟨hupload, List.nil_subset _⟩⟩)
        hrest (h.addUpload hdistinct hdone hupload)

/-- The map of a request, and the lines that are in it. -/
theorem holds_collectEntries (hdistinct : (uploads.map uploadKey).Nodup) :
    Holds (collectEntries uploads request) (visibleLines request uploads) := by
  have hperm := List.perm_insertionSort (fun left right => uploadKey left ≤ uploadKey right) uploads
  have hempty : Holds ∅ (visibleLines request []) := by
    intro key line
    simp [visibleLines, Shown]
  have hfold := hempty.foldl_addUpload hdistinct (List.nil_subset _) hperm.subset
  have hsame : visibleLines request ([] ++ uploads.insertionSort fun left right =>
      uploadKey left ≤ uploadKey right) = visibleLines request uploads := by
    ext line
    simp [visibleLines, Shown, hperm.mem_iff]
  rwa [hsame] at hfold

/-! ### The listing as a list -/

/-- The lines in their order. -/
def listing (uploads : List MultipartUpload) (request : ListMultipartUploadsRequest) :
    List MultipartListingEntry :=
  (collectEntries uploads request).toList.map Prod.snd

theorem mem_toList_collectEntries (hdistinct : (uploads.map uploadKey).Nodup)
    {pair : EntryKey × MultipartListingEntry} :
    pair ∈ (collectEntries uploads request).toList ↔
      pair.2.position = pair.1 ∧ pair.2 ∈ visibleLines request uploads :=
  FinMap.mem_toList.trans (holds_collectEntries hdistinct _ _)

theorem mem_listing (hdistinct : (uploads.map uploadKey).Nodup) {line : MultipartListingEntry} :
    line ∈ listing uploads request ↔
      Shown request uploads line ∧ afterMarker request line.position := by
  rw [listing, List.mem_map]
  constructor
  · rintro ⟨pair, hpair, rfl⟩
    exact ((mem_toList_collectEntries hdistinct).mp hpair).2
  · intro h
    exact ⟨(line.position, line), (mem_toList_collectEntries hdistinct).mpr ⟨rfl, h⟩, rfl⟩

/-- From the first page on, every line that there is. -/
theorem mem_listing_first (hdistinct : (uploads.map uploadKey).Nodup)
    (hfirst : request.keyMarker = none) {line : MultipartListingEntry} :
    line ∈ listing uploads request ↔ Shown request uploads line := by
  rw [mem_listing hdistinct, afterMarker, hfirst]
  exact and_iff_left rfl

theorem toList_collectEntries (hdistinct : (uploads.map uploadKey).Nodup) :
    (collectEntries uploads request).toList =
      (listing uploads request).map fun line => (line.position, line) := by
  rw [listing, List.map_map]
  refine (List.map_id _).symm.trans (List.map_congr_left fun pair hpair => ?_)
  exact Prod.ext ((mem_toList_collectEntries hdistinct).mp hpair).1.symm rfl

theorem listing_ascending (hdistinct : (uploads.map uploadKey).Nodup) :
    (listing uploads request).Pairwise fun a b => a.position < b.position := by
  have hordered := Std.TreeMap.ordered_keys_toList (t := collectEntries uploads request)
  rw [toList_collectEntries hdistinct, List.pairwise_map] at hordered
  exact hordered.imp compare_lt_iff_lt.mp

/-- Ascending lists with the same lines are the same. -/
theorem eq_of_ascending {a b : List MultipartListingEntry}
    (ha : a.Pairwise fun x y => x.position < y.position)
    (hb : b.Pairwise fun x y => x.position < y.position) (h : ∀ line, line ∈ a ↔ line ∈ b) : a = b := by
  have hnodup : ∀ {l : List MultipartListingEntry},
      l.Pairwise (fun x y => x.position < y.position) → l.Nodup := fun hl =>
    hl.imp fun hlt heq => absurd (heq ▸ hlt) (lt_irrefl _)
  have hperm := (List.perm_ext_iff_of_nodup (hnodup ha) (hnodup hb)).mpr h
  exact hperm.eq_of_pairwise (fun x y _ _ hxy hyx => absurd hyx hxy.asymm) ha hb

end Lines

/-! ### Going on behind a line -/

/-- The request for the page behind a line. -/
def ListMultipartUploadsRequest.resumeAt (request : ListMultipartUploadsRequest) (line : EntryKey) :
    ListMultipartUploadsRequest :=
  { request with keyMarker := some line.key, uploadIdMarker := line.uploadId }

section Resume

variable {request : ListMultipartUploadsRequest} {uploads : List MultipartUpload}

theorem afterMarker_resumeAt {last line : EntryKey} :
    afterMarker (request.resumeAt last) line ↔
      last.key < line.key ∨ line.key = last.key ∧
        ∃ marker id, last.uploadId = some marker ∧ line.uploadId = some id ∧ marker < id := by
  simp only [afterMarker, ListMultipartUploadsRequest.resumeAt]
  by_cases hlt : last.key < line.key
  · simp [hlt]
  · by_cases heq : line.key = last.key
    · rw [if_neg hlt, if_pos heq]
      cases last.uploadId <;> cases line.uploadId <;> simp [heq]
    · simp [hlt, heq]

/-- Among the lines of a listing, behind the markers means behind in the order. A key
that is a common prefix is not shown, so that no line stands between a common prefix
and the next key. -/
theorem afterMarker_iff_lt {last line : MultipartListingEntry} (hlast : Shown request uploads last)
    (hline : Shown request uploads line) :
    afterMarker (request.resumeAt last.position) line.position ↔ last.position < line.position := by
  rw [afterMarker_resumeAt, EntryKey.lt_iff]
  refine or_congr_right ?_
  cases last with
  | upload listed =>
      cases line with
      | upload listed' =>
          simp [MultipartListingEntry.position, uploadKey, eq_comm]
      | commonPrefix name => simp [MultipartListingEntry.position, uploadKey]
  | commonPrefix name =>
      cases line with
      | commonPrefix name' => simp [MultipartListingEntry.position]
      | upload listed' =>
          have hne : name ≠ listed'.identity.key.toList := by
            rintro rfl
            obtain ⟨a, -, ha⟩ := hlast
            obtain ⟨b, -, hb⟩ := hline
            obtain ⟨rfl, -, hnone⟩ := lineOf_eq_upload.mp hb
            have hself := commonFor_self (lineOf_eq_commonPrefix.mp ha).2
            exact absurd (hself.symm.trans hnone) (Option.some_ne_none _)
          simp [MultipartListingEntry.position, uploadKey, hne]

/-- The listing behind a line is the rest of the listing. -/
theorem listing_resumeAt (hdistinct : (uploads.map uploadKey).Nodup)
    (hfirst : request.keyMarker = none) {before rest : List MultipartListingEntry}
    {last : MultipartListingEntry} (hsplit : listing uploads request = before ++ last :: rest) :
    listing uploads (request.resumeAt last.position) = rest := by
  have hlast : Shown request uploads last := (mem_listing_first hdistinct hfirst).mp
    (hsplit ▸ List.mem_append_right before List.mem_cons_self)
  have hfilter : listing uploads (request.resumeAt last.position) =
      (listing uploads request).filter fun line => decide (last.position < line.position) := by
    refine eq_of_ascending (listing_ascending hdistinct)
      ((listing_ascending hdistinct).filter _) fun line => ?_
    rw [mem_listing hdistinct, List.mem_filter, decide_eq_true_iff, mem_listing_first hdistinct hfirst]
    exact and_congr_right fun hline => afterMarker_iff_lt hlast hline
  rw [hfilter]
  exact filter_after (fun line => decide_eq_true_iff) (listing_ascending hdistinct) hsplit

end Resume

/-! ### Pages -/

section Pages

variable {request current : ListMultipartUploadsRequest} {uploads : List MultipartUpload}
  {before rest : List MultipartListingEntry}

/-- A request on the way through the pages: behind the lines of `before`. -/
structure AtUploads (uploads : List MultipartUpload) (request current : ListMultipartUploadsRequest)
    (before rest : List MultipartListingEntry) : Prop where
  distinct : (uploads.map uploadKey).Nodup
  first : request.keyMarker = none
  size_pos : 1 ≤ request.maxUploads
  size_le : request.maxUploads ≤ maxMultipartUploadsPage
  delimiter : request.delimiter ≠ some []
  same : ∃ keyMarker uploadIdMarker, (uploadIdMarker.isSome → keyMarker.isSome) ∧
    current = { request with keyMarker := keyMarker, uploadIdMarker := uploadIdMarker }
  split : listing uploads request = before ++ rest
  rest_eq : listing uploads current = rest

theorem AtUploads.maxUploads (h : AtUploads uploads request current before rest) :
    current.maxUploads = request.maxUploads := by
  obtain ⟨keyMarker, uploadIdMarker, -, rfl⟩ := h.same
  rfl

theorem AtUploads.paginate (h : AtUploads uploads request current before rest) :
    paginateMultipartUploads uploads current =
      .ok (pageOf (rest.map fun line => (line.position, line)) current request.maxUploads) := by
  have hvalid : ¬(maxMultipartUploadsPage < current.maxUploads ∨
      (current.uploadIdMarker.isSome ∧ current.keyMarker.isNone) ∨ current.delimiter = some []) := by
    obtain ⟨keyMarker, uploadIdMarker, hmarkers, rfl⟩ := h.same
    rintro (hsize | ⟨hid, hkey⟩ | hdelimiter)
    · exact absurd h.size_le (Nat.not_le.mpr hsize)
    · have := hmarkers hid
      cases keyMarker with
      | none => cases this
      | some marker => cases hkey
    · exact h.delimiter hdelimiter
  rw [paginateMultipartUploads, rejectIf_neg hvalid, toList_collectEntries h.distinct, h.rest_eq,
    h.maxUploads]
  rfl

theorem pageOf_uploads (size : ℕ) :
    (pageOf (rest.map fun line => (line.position, line)) current size).uploads =
      (rest.take size).filterMap MultipartListingEntry.asUpload := by
  simp [pageOf, ← List.map_take, List.filterMap_map]

theorem pageOf_commonPrefixes (size : ℕ) :
    (pageOf (rest.map fun line => (line.position, line)) current size).commonPrefixes =
      (rest.take size).filterMap MultipartListingEntry.asCommonPrefix := by
  simp [pageOf, ← List.map_take, List.filterMap_map]

theorem pageOf_isTruncated (size : ℕ) :
    (pageOf (rest.map fun line => (line.position, line)) current size).isTruncated =
      decide (size < rest.length) := by
  simp [pageOf]

/-- Behind a page that is not the last, the markers lead to the rest. -/
theorem AtUploads.next (h : AtUploads uploads request current before rest)
    (hmore : request.maxUploads < rest.length) :
    AtUploads uploads request
      { current with
        keyMarker := (pageOf (rest.map fun line => (line.position, line)) current
          request.maxUploads).nextKeyMarker
        uploadIdMarker := (pageOf (rest.map fun line => (line.position, line)) current
          request.maxUploads).nextUploadIdMarker }
      (before ++ rest.take request.maxUploads) (rest.drop request.maxUploads) := by
  have hne : rest.take request.maxUploads ≠ [] := by
    have := h.size_pos
    rw [← List.length_pos_iff, List.length_take]
    omega
  obtain ⟨front, last, hfront⟩ := List.eq_nil_or_concat' _ |>.resolve_left hne
  have hmarkers : { current with
      keyMarker := (pageOf (rest.map fun line => (line.position, line)) current
        request.maxUploads).nextKeyMarker
      uploadIdMarker := (pageOf (rest.map fun line => (line.position, line)) current
        request.maxUploads).nextUploadIdMarker } = request.resumeAt last.position := by
    obtain ⟨keyMarker, uploadIdMarker, -, rfl⟩ := h.same
    simp [pageOf, hmore, ← List.map_take, hfront, ListMultipartUploadsRequest.resumeAt]
  have hsplit : listing uploads request =
      (before ++ front) ++ last :: rest.drop request.maxUploads := by
    have hrest : rest = front ++ last :: rest.drop request.maxUploads := by
      conv_lhs => rw [← List.take_append_drop request.maxUploads rest, hfront]
      simp
    rw [h.split, List.append_assoc, ← hrest]
  rw [hmarkers]
  exact { distinct := h.distinct, first := h.first, size_pos := h.size_pos, size_le := h.size_le
          delimiter := h.delimiter
          same := ⟨some last.position.key, last.position.uploadId, fun _ => rfl, rfl⟩
          split := by rw [h.split, List.append_assoc, List.take_append_drop]
          rest_eq := listing_resumeAt h.distinct h.first hsplit }

/-- The pages from a request on show these lines. -/
def ShowsLines (uploads : List MultipartUpload) (fuel : ℕ) (current : ListMultipartUploadsRequest)
    (lines : List MultipartListingEntry) : Prop :=
  ∃ pages, followUploads uploads fuel current = .ok (some pages) ∧
    pages.flatMap ListMultipartUploadsPage.uploads =
      lines.filterMap MultipartListingEntry.asUpload ∧
    pages.flatMap ListMultipartUploadsPage.commonPrefixes =
      lines.filterMap MultipartListingEntry.asCommonPrefix

theorem AtUploads.follow_last (h : AtUploads uploads request current before rest)
    (hfits : rest.length ≤ request.maxUploads) (n : ℕ) :
    ShowsLines uploads (n + 1) current rest := by
  refine ⟨[pageOf (rest.map fun line => (line.position, line)) current request.maxUploads],
    ?_, ?_, ?_⟩
  · simp only [followUploads, h.paginate, ok_bind, pageOf_isTruncated, decide_eq_true_iff,
      Nat.not_lt.mpr hfits, if_false]
    rfl
  · rw [List.flatMap_singleton, pageOf_uploads, List.take_of_length_le hfits]
  · rw [List.flatMap_singleton, pageOf_commonPrefixes, List.take_of_length_le hfits]

/-- Every page that is not the last shows some lines, so there is a last one. -/
theorem AtUploads.follow {n : ℕ} (hlength : rest.length ≤ n)
    (h : AtUploads uploads request current before rest) :
    ShowsLines uploads (n + 1) current rest := by
  induction n generalizing current before rest with
  | zero => exact h.follow_last (hlength.trans (Nat.zero_le _)) 0
  | succ n ih =>
      by_cases hfits : rest.length ≤ request.maxUploads
      · exact h.follow_last hfits (n + 1)
      · rw [Nat.not_le] at hfits
        have hless : (rest.drop request.maxUploads).length ≤ n := by
          have := h.size_pos
          rw [List.length_drop]
          omega
        obtain ⟨pages, hpages, huploads, hcommons⟩ := ih hless (h.next hfits)
        refine ⟨pageOf (rest.map fun line => (line.position, line)) current request.maxUploads ::
          pages, ?_, ?_, ?_⟩
        · rw [followUploads, h.paginate]
          simp only [ok_bind, pageOf_isTruncated, decide_eq_true_iff.mpr hfits, if_true, hpages]
          rfl
        · rw [List.flatMap_cons, huploads, pageOf_uploads, ← List.filterMap_append,
            List.take_append_drop]
        · rw [List.flatMap_cons, hcommons, pageOf_commonPrefixes, ← List.filterMap_append,
            List.take_append_drop]

end Pages

section Unbounded

variable {uploads : List MultipartUpload} {request : ListMultipartUploadsRequest}

theorem unboundedPage_lines (hdistinct : (uploads.map uploadKey).Nodup) :
    (unboundedPage uploads request).uploads =
        (listing uploads request).filterMap MultipartListingEntry.asUpload ∧
      (unboundedPage uploads request).commonPrefixes =
        (listing uploads request).filterMap MultipartListingEntry.asCommonPrefix := by
  rw [unboundedPage, toList_collectEntries hdistinct, List.length_map, pageOf_uploads,
    pageOf_commonPrefixes, List.take_length]
  exact ⟨rfl, rfl⟩

/-- The page without a bound shows every line. -/
theorem mem_unboundedPage (hdistinct : (uploads.map uploadKey).Nodup)
    (hfirst : request.keyMarker = none) :
    (∀ upload, upload ∈ (unboundedPage uploads request).uploads ↔
        Shown request uploads (.upload upload)) ∧
      ∀ name, name ∈ (unboundedPage uploads request).commonPrefixes ↔
        Shown request uploads (.commonPrefix name) := by
  obtain ⟨huploads, hcommons⟩ := @unboundedPage_lines uploads request hdistinct
  refine ⟨fun upload => ?_, fun name => ?_⟩
  · rw [huploads, ← mem_listing_first hdistinct hfirst, List.mem_filterMap]
    constructor
    · rintro ⟨_ | _, hmem, ⟨⟩⟩
      exact hmem
    · exact fun hmem => ⟨_, hmem, rfl⟩
  · rw [hcommons, ← mem_listing_first hdistinct hfirst, List.mem_filterMap]
    constructor
    · rintro ⟨_ | _, hmem, ⟨⟩⟩
      exact hmem
    · exact fun hmem => ⟨_, hmem, rfl⟩

/-- The uploads and the common prefixes of a listing ascend. -/
theorem unboundedPage_ascending (hdistinct : (uploads.map uploadKey).Nodup) :
    ((unboundedPage uploads request).uploads.Pairwise fun a b => uploadKey a < uploadKey b) ∧
      (unboundedPage uploads request).commonPrefixes.Pairwise (· < ·) := by
  have hascending : (listing uploads request).Pairwise fun a b => a.position < b.position :=
    listing_ascending hdistinct
  rw [(unboundedPage_lines hdistinct).1, (unboundedPage_lines hdistinct).2]
  constructor
  · refine hascending.filterMap _ fun a b hab x hx y hy => ?_
    cases a <;> cases b <;> simp_all [MultipartListingEntry.asUpload, MultipartListingEntry.position]
  · refine hascending.filterMap _ fun a b hab x hx y hy => ?_
    cases a <;> cases b <;>
      simp_all [MultipartListingEntry.asCommonPrefix, MultipartListingEntry.position,
        EntryKey.lt_iff]

end Unbounded

/-- Following the markers from the first page comes to an end, and the pages together
show what one page without a bound shows, every line once and in order. -/
theorem followUploads_complete (uploads : List MultipartUpload)
    (request : ListMultipartUploadsRequest)
    (hdistinct : (uploads.map fun upload => (upload.identity.key, upload.identity.uploadId)).Nodup)
    (hkeyMarker : request.keyMarker = none) (huploadIdMarker : request.uploadIdMarker = none)
    (hdelimiter : request.delimiter ≠ some []) (hpos : 1 ≤ request.maxUploads)
    (hmax : request.maxUploads ≤ 1000) :
    ∃ fuel pages, followUploads uploads fuel request = .ok (some pages) ∧
      pages.flatMap ListMultipartUploadsPage.uploads = (unboundedPage uploads request).uploads ∧
      pages.flatMap ListMultipartUploadsPage.commonPrefixes =
        (unboundedPage uploads request).commonPrefixes ∧
      ((∀ upload, upload ∈ (unboundedPage uploads request).uploads ↔
          Shown request uploads (.upload upload)) ∧
        ∀ name, name ∈ (unboundedPage uploads request).commonPrefixes ↔
          Shown request uploads (.commonPrefix name)) ∧
      ((unboundedPage uploads request).uploads.Pairwise fun a b => uploadKey a < uploadKey b) ∧
      (unboundedPage uploads request).commonPrefixes.Pairwise (· < ·) := by
  have hkeys : (uploads.map uploadKey).Nodup := by
    have hinjective : Function.Injective fun pair : String × String =>
        (⟨pair.1.toList, some pair.2.toList⟩ : EntryKey) := by
      rintro ⟨key, id⟩ ⟨key', id'⟩ h
      obtain ⟨hkey, hid⟩ := EntryKey.mk.inj h
      exact Prod.ext (String.toList_inj.mp hkey) (String.toList_inj.mp (Option.some.inj hid))
    have := hdistinct.map hinjective
    rwa [List.map_map] at this
  have hat : AtUploads uploads request request [] (listing uploads request) :=
    { distinct := hkeys, first := hkeyMarker, size_pos := hpos, size_le := hmax
      delimiter := hdelimiter
      same := ⟨request.keyMarker, request.uploadIdMarker, by simp [huploadIdMarker], rfl⟩
      split := rfl
      rest_eq := rfl }
  obtain ⟨pages, hpages, huploads, hcommons⟩ := hat.follow le_rfl
  exact ⟨_, pages, hpages, huploads.trans (unboundedPage_lines hkeys).1.symm,
    hcommons.trans (unboundedPage_lines hkeys).2.symm, mem_unboundedPage hkeys hkeyMarker,
    unboundedPage_ascending hkeys⟩

def sampleListed (key uploadId : String) : MultipartUpload :=
  { Multipart.sampleUpload with
    identity := { Multipart.sampleIdentity with key := key, uploadId := uploadId } }

/-- Two uploads of one key and two below a common prefix. -/
def sampleUploads : List MultipartUpload :=
  [sampleListed "b" "1", sampleListed "a/x" "2", sampleListed "b" "3", sampleListed "a/y" "4"]

/-- One line on each page. -/
theorem sampleUploads_listed :
    ∃ fuel pages, followUploads sampleUploads fuel ⟨[], some ['/'], none, none, 1⟩ =
        .ok (some pages) ∧
      pages.flatMap ListMultipartUploadsPage.uploads =
        (unboundedPage sampleUploads ⟨[], some ['/'], none, none, 1⟩).uploads ∧
      pages.flatMap ListMultipartUploadsPage.commonPrefixes =
        (unboundedPage sampleUploads ⟨[], some ['/'], none, none, 1⟩).commonPrefixes := by
  obtain ⟨fuel, pages, hpages, huploads, hcommons, -⟩ := followUploads_complete sampleUploads
    ⟨[], some ['/'], none, none, 1⟩ (by decide) rfl rfl (by decide) (by decide) (by decide)
  exact ⟨fuel, pages, hpages, huploads, hcommons⟩

end Maskura.Listing
