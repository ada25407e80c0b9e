import Mathlib.Data.Set.Defs
import Mathlib.Data.List.Basic

/-! # A client that follows redirects

What an HTTP client fetches that follows redirects up to a limit. Resolvers and servers answer every
request as they like, so the same URL may be answered in another way later.
-/

namespace Http

inductive Reply (Url Response Error : Type*) where
  | redirect (location : Url)
  | answered (response : Response)
  | failed (error : Error)

/-- The outside of a client, request by request: what it connects to for a URL, or why it cannot, and
what it hears there. -/
structure Web (Url Connection Response Error : Type*) where
  connect : ℕ → Url → Except Error Connection
  reply : ℕ → Url → Reply Url Response Error

structure Fetch (Url Connection : Type*) where
  url : Url
  connection : Connection

structure Traffic (Url Connection Response Error : Type*) where
  fetches : List (Fetch Url Connection)
  ending : Except Error Response

variable {Url Connection Response Error : Type*} (web : Web Url Connection Response Error)

/-- Where so many redirects lead from a request. -/
def location : ℕ → Url → ℕ → Option Url
  | _, url, 0 => some url
  | i, url, k + 1 =>
    match web.connect i url, web.reply i url with
    | .ok _, .redirect next => location (i + 1) next k
    | _, _ => none

variable (tooMany : Error)

/-- The traffic of a request that may be redirected so many times. -/
inductive Followed : ℕ → ℕ → Url → Traffic Url Connection Response Error → Prop
  | refused {n i : ℕ} {url : Url} {error : Error} (refused : web.connect i url = .error error) :
      Followed n i url ⟨[], .error error⟩
  | failed {n i : ℕ} {url : Url} {connection : Connection} {error : Error}
      (connected : web.connect i url = .ok connection) (failed : web.reply i url = .failed error) :
      Followed n i url ⟨[⟨url, connection⟩], .error error⟩
  | answered {n i : ℕ} {url : Url} {connection : Connection} {response : Response}
      (connected : web.connect i url = .ok connection)
      (answered : web.reply i url = .answered response) :
      Followed n i url ⟨[⟨url, connection⟩], .ok response⟩
  | exceeded {i : ℕ} {url next : Url} {connection : Connection}
      (connected : web.connect i url = .ok connection)
      (redirected : web.reply i url = .redirect next) :
      Followed 0 i url ⟨[⟨url, connection⟩], .error tooMany⟩
  | redirected {n i : ℕ} {url next : Url} {connection : Connection}
      {traffic : Traffic Url Connection Response Error}
      (connected : web.connect i url = .ok connection)
      (redirected : web.reply i url = .redirect next) (followed : Followed n (i + 1) next traffic) :
      Followed (n + 1) i url ⟨⟨url, connection⟩ :: traffic.fetches, traffic.ending⟩

/-- The client that does nothing else. -/
def follow : ℕ → ℕ → Url → Traffic Url Connection Response Error
  | n, i, url =>
    match web.connect i url with
    | .error error => ⟨[], .error error⟩
    | .ok connection =>
      match web.reply i url, n with
      | .failed error, _ => ⟨[⟨url, connection⟩], .error error⟩
      | .answered response, _ => ⟨[⟨url, connection⟩], .ok response⟩
      | .redirect _, 0 => ⟨[⟨url, connection⟩], .error tooMany⟩
      | .redirect next, n + 1 =>
        let traffic := follow n (i + 1) next
        ⟨⟨url, connection⟩ :: traffic.fetches, traffic.ending⟩

variable {web tooMany} {n i k : ℕ} {url next : Url} {connection : Connection}

theorem followed_follow (n i : ℕ) (url : Url) :
    Followed web tooMany n i url (follow web tooMany n i url) := by
  induction n generalizing i url with
  | zero =>
    unfold follow
    cases connected : web.connect i url with
    | error error => exact .refused connected
    | ok connection =>
      cases answer : web.reply i url with
      | redirect next => exact .exceeded connected answer
      | answered response => exact .answered connected answer
      | failed error => exact .failed connected answer
  | succ n ih =>
    unfold follow
    cases connected : web.connect i url with
    | error error => exact .refused connected
    | ok connection =>
      cases answer : web.reply i url with
      | redirect next => exact .redirected connected answer (ih (i + 1) next)
      | answered response => exact .answered connected answer
      | failed error => exact .failed connected answer

theorem location_redirected (connected : web.connect i url = .ok connection)
    (redirected : web.reply i url = .redirect next) (k : ℕ) :
    location web i url (k + 1) = location web (i + 1) next k := by
  rw [location, connected, redirected]

/-- Only a redirect leads on. -/
theorem location_succ_of_ne (unredirected : ∀ next, web.reply i url ≠ .redirect next) (k : ℕ) :
    location web i url (k + 1) = none := by
  rw [location]
  split
  next redirected => exact absurd redirected (unredirected _)
  next => rfl

theorem location_succ_of_error {error : Error} (refused : web.connect i url = .error error) (k : ℕ) :
    location web i url (k + 1) = none := by
  rw [location, refused]

variable {traffic : Traffic Url Connection Response Error}

/-- A request that leads nowhere is the only one. -/
theorem eq_fetch_iff (connected : web.connect i url = .ok connection)
    (stops : ∀ k < n, location web i url (k + 1) = none) {fetch : Fetch Url Connection} :
    fetch = ⟨url, connection⟩ ↔ ∃ k ≤ n, location web i url k = some fetch.url ∧
      web.connect (i + k) fetch.url = .ok fetch.connection := by
  constructor
  · rintro rfl
    exact ⟨0, Nat.zero_le n, rfl, connected⟩
  · rintro ⟨k, within, leads, connected'⟩
    cases k with
    | zero =>
      obtain ⟨target, reached⟩ := fetch
      obtain rfl : url = target := Option.some.inj leads
      rw [Nat.add_zero, connected] at connected'
      rw [Except.ok.inj connected']
    | succ k => cases (stops k within).symm.trans leads

/-- What is fetched is where the redirects lead, as far as the limit allows. -/
theorem Followed.mem_fetches (followed : Followed web tooMany n i url traffic)
    {fetch : Fetch Url Connection} : fetch ∈ traffic.fetches ↔
      ∃ k ≤ n, location web i url k = some fetch.url ∧
        web.connect (i + k) fetch.url = .ok fetch.connection := by
  induction followed with
  | @refused n i url error refused =>
    refine iff_of_false List.not_mem_nil ?_
    rintro ⟨k, -, leads, connected⟩
    cases k with
    | zero =>
      obtain rfl : url = fetch.url := Option.some.inj leads
      cases refused.symm.trans connected
    | succ k => cases (location_succ_of_error refused k).symm.trans leads
  | failed connected failed =>
    rw [List.mem_singleton]
    exact eq_fetch_iff connected fun k _ =>
      location_succ_of_ne (fun next redirected => by cases failed.symm.trans redirected) k
  | answered connected answered =>
    rw [List.mem_singleton]
    exact eq_fetch_iff connected fun k _ =>
      location_succ_of_ne (fun next redirected => by cases answered.symm.trans redirected) k
  | exceeded connected redirected =>
    rw [List.mem_singleton]
    exact eq_fetch_iff connected fun k below => absurd below (Nat.not_lt_zero k)
  | @redirected n i url next connection traffic connected redirected followed ih =>
    have later (k : ℕ) : location web i url (k + 1) = location web (i + 1) next k :=
      location_redirected connected redirected k
    rw [List.mem_cons, ih]
    constructor
    · rintro (rfl | ⟨k, within, leads, connected'⟩)
      · exact ⟨0, Nat.zero_le _, rfl, connected⟩
      · refine ⟨k + 1, Nat.succ_le_succ within, (later k).trans leads, ?_⟩
        rwa [Nat.add_assoc, Nat.add_comm 1 k] at connected'
    · rintro ⟨k, within, leads, connected'⟩
      cases k with
      | zero => exact .inl ((eq_fetch_iff (n := 0) connected fun k below =>
          absurd below (Nat.not_lt_zero k)).mpr ⟨0, Nat.le_refl 0, leads, connected'⟩)
      | succ k =>
        refine .inr ⟨k, Nat.le_of_succ_le_succ within, (later k).symm.trans leads, ?_⟩
        rwa [Nat.add_assoc, Nat.add_comm 1 k]

/-- A request that cannot be made ends the traffic with an error. -/
theorem Followed.ending_of_refused (followed : Followed web tooMany n i url traffic) {error : Error}
    {target : Url} (within : k ≤ n) (leads : location web i url k = some target)
    (refused : web.connect (i + k) target = .error error) :
    ∃ error, traffic.ending = .error error := by
  induction followed generalizing k with
  | refused => exact ⟨_, rfl⟩
  | failed => exact ⟨_, rfl⟩
  | exceeded => exact ⟨_, rfl⟩
  | @answered n i url connection response connected answered =>
    cases k with
    | zero =>
      obtain rfl : url = target := Option.some.inj leads
      cases connected.symm.trans refused
    | succ k =>
      have stops : location web i url (k + 1) = none := location_succ_of_ne
        (fun next redirected => by cases answered.symm.trans redirected) k
      cases stops.symm.trans leads
  | @redirected n i url next connection traffic connected redirected followed ih =>
    cases k with
    | zero =>
      obtain rfl : url = target := Option.some.inj leads
      cases connected.symm.trans refused
    | succ k =>
      rw [location_redirected connected redirected] at leads
      rw [Nat.add_comm k 1, ← Nat.add_assoc] at refused
      exact ih (Nat.le_of_succ_le_succ within) leads refused

end Http
