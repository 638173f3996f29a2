/-
Recordings of others: `downloadAudio(from:)` of `MediaDownloader`.

The daily task and the two previews fetch a recording into the documents of the app, under
the last component of its URL, and play it from there.  A file that is there already makes
`moveItem` fail, and so does a name that leads to no place for a file: the component is
decoded, so that it can hold slashes, and then the folder it names has to be there.  The
completion is called with `nil` in both cases.
-/
import GoodThing.Controller.Picture
import GoodThing.Lib.Directory

namespace GoodThing

/-- `URL(string:)` and `lastPathComponent`, which is decoded. -/
structure AudioURLs extends URLs where
  lastPathComponent : String → String

/-- The folders of the documents, which no download changes; `N` are the places for a file. -/
structure Documents (N : Type) where
  /-- Where `appendingPathComponent` leads; `none` for a folder, and in one that is not there. -/
  place : String → Option N

/-- What `URL`s name and hold; `B` is what a file holds. -/
def audioSource {N B : Type} (urls : AudioURLs) (documents : Documents N) (content : String → B) :
    Directory.Source String N B where
  place urlString := documents.place (urls.lastPathComponent urlString)
  content := content

/-- The documents of the app, and the calls of `downloadAudio`. -/
abbrev DownloadState (K N B : Type) := Directory.State K String N B

inductive DownloadAction (K : Type) where
  | downloadAudio (k : K) (urlString : String)
  /-- The completion handler of the task is called, with a file or with an error. -/
  | downloaded (k : K)
  | downloadFails (k : K)
  /-- `completion(destinationURL)` is run on the main queue. -/
  | completion (k : K)

/-- Nothing has been called, and these files are in the documents. -/
def openDownloads {K N B : Type} (files : N → Option B) : DownloadState K N B :=
  Directory.start files

def downloadStep {K N B : Type} [DecidableEq K] [DecidableEq N] (urls : AudioURLs)
    (documents : Documents N) (content : String → B) (s : DownloadState K N B) :
    DownloadAction K → DownloadState K N B
  | .downloadAudio k urlString =>
      if urls.isURL urlString then
        Directory.step (audioSource urls documents content) s (.start k urlString)
      else s
  | .downloaded k => Directory.step (audioSource urls documents content) s (.fetched k)
  | .downloadFails k => Directory.step (audioSource urls documents content) s (.fetchFails k)
  | .completion k => Directory.step (audioSource urls documents content) s (.told k)

/-- The URL a call was made with. -/
def calledWith {K N B : Type} (s : DownloadState K N B) (k : K) : Option String :=
  (s.jobs k).asked

end GoodThing
