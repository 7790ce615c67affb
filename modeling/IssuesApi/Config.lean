import IssuesApi.Lib.Text

/-!
# Configuration (`app/config.py`)

The settings the modelled functions read.
-/

namespace IssuesApi

/-- `Settings`. -/
structure Settings where
  githubToken : Text
  githubOwner : Text
  githubRepo : Text
  webhookSecret : Text
  githubApiVersion : Text
  eventsMaxLimit : ℤ
  cacheEnabled : Bool
  cacheMaxEntries : ℕ
  cacheMaxEntries_pos : 1 ≤ cacheMaxEntries

/-- The same configuration with `cache_enabled=False`. -/
def Settings.withoutCache (settings : Settings) : Settings :=
  { settings with cacheEnabled := false }

/-- `Settings.repo_slug`. -/
def Settings.repoSlug (settings : Settings) : Text :=
  settings.githubOwner ++ '/' :: settings.githubRepo

end IssuesApi
