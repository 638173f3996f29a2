/-
Which recordings reach their player.

A place in the documents belongs to the first file that is moved there, so a recording that
is asked for a second time is not delivered, and neither is another with the same last path
component, nor one whose last path component leads to no place for a file.
-/
import GoodThing.Controller.Downloader
import GoodThing.Proofs.Picture

namespace GoodThing

open Machine

variable {K N B : Type} [DecidableEq K] [DecidableEq N]

/-- A step is one of the directory, or none. -/
theorem downloadStep_cases (urls : AudioURLs) (documents : Documents N) (content : String → B)
    (s : DownloadState K N B) (a : DownloadAction K) (ha : ∀ k, a ≠ .downloadFails k) :
    downloadStep urls documents content s a = s ∨
    ∃ a', (∀ k, a' ≠ .fetchFails k) ∧ downloadStep urls documents content s a =
      Directory.step (audioSource urls documents content) s a' := by
  cases a with
  | downloadAudio k urlString =>
      by_cases hurl : urls.isURL urlString = true
      · refine Or.inr ⟨.start k urlString, nofun, ?_⟩
        simp only [downloadStep, if_pos hurl]
      · refine Or.inl ?_
        simp only [downloadStep, if_neg hurl]
  | downloaded k => exact Or.inr ⟨.fetched k, nofun, rfl⟩
  | downloadFails k => exact absurd rfl (ha k)
  | completion k => exact Or.inr ⟨.told k, nofun, rfl⟩

theorem kept_downloads (urls : AudioURLs) (documents : Documents N) (content : String → B)
    (files : N → Option B) (as : List (DownloadAction K))
    (has : ∀ a ∈ as, ∀ k, a ≠ .downloadFails k) :
    Directory.Kept (audioSource urls documents content) files
      (run (downloadStep urls documents content) (openDownloads files) as) := by
  refine run_invariant_of_mem ?_ as _ has (Directory.kept_start files)
  intro s a ha h
  rcases downloadStep_cases urls documents content s a ha with heq | ⟨a', ha', heq⟩
  · rw [heq]
    exact h
  · rw [heq]
    exact Directory.kept_step a' ha' h

/-- Every call has ended with the URL of a file that held its own recording by then. -/
def RecordingsDelivered (urls : AudioURLs) (documents : Documents N) (content : String → B)
    (s : DownloadState K N B) : Prop :=
  ∀ k urlString, calledWith s k = some urlString →
    ∃ file, documents.place (urls.lastPathComponent urlString) = some file ∧
      s.jobs k = .ended urlString (some (file, some (content urlString)))

/--
The last path component of every call leads to a place where no file is, and no two lead to
the same one.
-/
def PlacesFree (urls : AudioURLs) (documents : Documents N) (files : N → Option B)
    (s : DownloadState K N B) : Prop :=
  (∀ k urlString, calledWith s k = some urlString →
    ∃ file, documents.place (urls.lastPathComponent urlString) = some file ∧ files file = none) ∧
  ∀ k k' urlString urlString', calledWith s k = some urlString →
    calledWith s k' = some urlString' →
    documents.place (urls.lastPathComponent urlString) =
      documents.place (urls.lastPathComponent urlString') → k = k'

/--
When all downloads have succeeded and all completions have been run, every call has got its
own recording exactly when their last path components lead to different places, and none of
these was taken.
-/
theorem recordings_delivered_iff (urls : AudioURLs) (documents : Documents N)
    (content : String → B) (files : N → Option B) (as : List (DownloadAction K))
    (has : ∀ a ∈ as, ∀ k, a ≠ .downloadFails k)
    (hended : Directory.AllEnded
      (run (downloadStep urls documents content) (openDownloads files) as)) :
    RecordingsDelivered urls documents content
        (run (downloadStep urls documents content) (openDownloads files) as) ↔
      PlacesFree urls documents files
        (run (downloadStep urls documents content) (openDownloads files) as) :=
  Directory.wellEnded_iff (kept_downloads urls documents content files as has) hended

/-- What follows the last slash. -/
def afterLastSlash (urlString : String) : String :=
  String.ofList (urlString.toList.reverse.takeWhile (· ≠ '/')).reverse

def plainURLs : AudioURLs := { someURLs with lastPathComponent := afterLastSlash }

/-- Documents without folders: a file is told by its name. -/
def noFolders : Documents String where
  place name :=
    if name = "" ∨ name = "." ∨ name = ".." ∨ '/' ∈ name.toList then none else some name

/-- A recording fetched once is delivered; fetched again it is not. -/
def fetchedOnce : List (DownloadAction Bool) :=
  [.downloadAudio true "https://s/ella.m4a", .downloaded true, .completion true]

theorem calledWith_fetchedOnce (k : Bool) :
    calledWith (run (downloadStep plainURLs noFolders fun _ => 5) (openDownloads fun _ => none)
      fetchedOnce) k = if k then some "https://s/ella.m4a" else none := by
  cases k with
  | false => decide
  | true => decide

theorem recording_delivered_once :
    RecordingsDelivered plainURLs noFolders (fun _ => 5)
      (run (downloadStep plainURLs noFolders fun _ => 5) (openDownloads fun _ => none)
        fetchedOnce) := by
  refine (recordings_delivered_iff plainURLs noFolders (fun _ => 5) (fun _ => none) fetchedOnce
    ?_ ?_).mpr ?_
  · intro a ha k hfails
    rw [hfails] at ha
    simp [fetchedOnce] at ha
  · intro k urlString hcalled
    cases k with
    | false => exact absurd hcalled (by rw [← calledWith, calledWith_fetchedOnce]; nofun)
    | true =>
        have hurl : some urlString = some "https://s/ella.m4a" :=
          hcalled.symm.trans (calledWith_fetchedOnce true)
        rw [Option.some.inj hurl]
        exact ⟨some ("ella.m4a", some 5), by decide⟩
  · refine ⟨?_, ?_⟩
    · intro k urlString hk
      rw [calledWith_fetchedOnce] at hk
      cases k with
      | false => cases hk
      | true =>
          rw [if_pos rfl, Option.some_inj] at hk
          exact ⟨"ella.m4a", by rw [← hk]; decide, rfl⟩
    · intro k k' urlString urlString' hk hk' _
      rw [calledWith_fetchedOnce] at hk hk'
      cases k with
      | false => cases hk
      | true =>
          cases k' with
          | false => cases hk'
          | true => rfl

/-- The same recording is asked for again, and the second call gets nothing. -/
theorem recording_not_delivered_twice :
    ¬ RecordingsDelivered plainURLs noFolders (fun _ => 5)
      (run (downloadStep plainURLs noFolders fun _ => 5) (openDownloads fun _ => none)
        (fetchedOnce ++ [.downloadAudio false "https://s/ella.m4a", .downloaded false])) := by
  intro h
  obtain ⟨file, -, hsecond⟩ := h false "https://s/ella.m4a" (by decide)
  exact absurd hsecond (by
    rw [show (run (downloadStep plainURLs noFolders fun _ => 5) (openDownloads fun _ => none)
      (fetchedOnce ++ [.downloadAudio false "https://s/ella.m4a", .downloaded false])).jobs false =
        .ended "https://s/ella.m4a" none by decide]
    nofun)

end GoodThing
