import QuantDataCenter.Lib.Retry
import QuantDataCenter.Lib.Trace
import QuantDataCenter.Sources.BaostockSocket

/-!
The session of the Baostock client (`sources/baostock/client.py`): logins and calls with retries, and
the session that a socket failure ends. The trace records what the client did; the service may answer
in any way, also with regard to everything that was done before.
-/

set_option autoImplicit false
set_option relaxedAutoImplicit false

namespace QuantDataCenter.Sources.Baostock

open QuantDataCenter.Lib.Retry QuantDataCenter.Lib.Trace

/-- What an operation of the `baostock` package returns or raises. -/
inductive Outcome (α : Type*) where
  | ok (value : α)
  | raised (e : BaostockError)
  | timeoutError
  | osError (message : String)
  | other (message : String)

inductive Raised where
  | baostock (e : BaostockError)
  | other (message : String)
  deriving DecidableEq

/-- `retry_if_exception_type(BaostockError)`. -/
def Raised.again : Raised → Bool
  | .baostock _ => true
  | .other _ => false

inductive Event where
  | login
  | opened
  | call
  | invalidated
  | loggedOut
  deriving DecidableEq

structure Client where
  loggedIn : Bool
  trace : List Event

/-- The service, and the fields of the client that stay. -/
structure Service (α : Type*) where
  maxAttempts : ℤ
  seconds : String
  login : List Event → Outcome Unit
  call : List Event → Outcome α
  logout : List Event → Bool

def Client.record (c : Client) (e : Event) : Client := { c with trace := c.trace ++ [e] }

/-- `_invalidate_session`. -/
def Client.invalidate (c : Client) : Client :=
  { loggedIn := false, trace := c.trace ++ [.invalidated] }

variable {α : Type*} (service : Service α)

/-- `max(int(self.max_attempts), 1)`, less one. -/
def Service.retries : ℕ := (max service.maxAttempts 1).toNat - 1

/-- `_call_once`, behind the operation. -/
@[grind =] def callOnce {β : Type*} (seconds action : String) (outcome : Outcome β) (c : Client) :
    Except Raised β × Client :=
  match outcome with
  | .ok value => (.ok value, c)
  | .raised (.timeout message) => (.error (.baostock (.timeout message)), c.invalidate)
  | .raised (.connection message) => (.error (.baostock (.connection message)), c.invalidate)
  | .timeoutError =>
    (.error (.baostock (.timeout (action ++ " timed out after " ++ seconds ++ "s"))), c.invalidate)
  | .osError message =>
    (.error (.baostock (.connection (action ++ " socket failed: " ++ message))), c.invalidate)
  | .raised (.error message) => (.error (.baostock (.error message)), c)
  | .other message => (.error (.other message), c)

/-- `_call_with_retries` of `bs.login()`. -/
def loginOnce (c : Client) : Except Raised Unit × Client :=
  callOnce service.seconds "baostock login" (service.login c.trace) (c.record .login)

/-- `login`, and `_ensure_logged_in`. -/
def login (c : Client) : Except Raised Unit × Client :=
  if c.loggedIn then (.ok (), c)
  else match retrying Raised.again (loginOnce service) service.retries c with
    | (.ok _, c) => (.ok (), { loggedIn := true, trace := c.trace ++ [.opened] })
    | (.error e, c) => (.error e, c)

/-- One attempt of `_call_with_retries`. -/
def attempt (action : String) (c : Client) : Except Raised α × Client :=
  match login service c with
  | (.error e, c) => (.error e, c)
  | (.ok _, c) => callOnce service.seconds action (service.call c.trace) (c.record .call)

/-- The query methods. -/
def query (action : String) (c : Client) : Except Raised α × Client :=
  match login service c with
  | (.error e, c) => (.error e, c)
  | (.ok _, c) => retrying Raised.again (attempt service action) service.retries c

/-- `logout`; it stays logged in when `bs.logout()` raises. -/
def logout (c : Client) : Client :=
  if c.loggedIn ∧ service.logout c.trace then
    { loggedIn := false, trace := c.trace ++ [.loggedOut] }
  else c

inductive Command where
  | query (action : String)
  | login
  | logout

def Client.command (c : Client) : Command → Client
  | .query action => (Baostock.query service action c).2
  | .login => (Baostock.login service c).2
  | .logout => Baostock.logout service c

def Client.new : Client := ⟨false, []⟩

/-! Calls on an open session -/

/-- Whether a session is open after the events. -/
def sessionOpen : List Event → Bool := fun events =>
  events.foldl (fun isOpen e =>
    match e with
    | .opened => true
    | .invalidated | .loggedOut => false
    | _ => isOpen) false

/-- A call goes to an open session, and a login opens one only when there is none. -/
def Fits (before : List Event) (e : Event) : Prop :=
  match e with
  | .call => sessionOpen before = true
  | .login | .opened => sessionOpen before = false
  | _ => True

/-- The flag says whether the session is open, and every event was in place. -/
structure InOrder (c : Client) : Prop where
  flag : c.loggedIn = sessionOpen c.trace
  along : Along Fits c.trace

private theorem sessionOpen_append (events : List Event) (e : Event) :
    sessionOpen (events ++ [e]) = match e with
      | .opened => true
      | .invalidated | .loggedOut => false
      | _ => sessionOpen events := List.foldl_concat _ _ _ _

theorem InOrder.ended {c : Client} (h : InOrder c) {e : Event}
    (he : e = .invalidated ∨ e = .loggedOut) : InOrder ⟨false, c.trace ++ [e]⟩ := by
  obtain rfl | rfl := he
  · exact ⟨(sessionOpen_append c.trace .invalidated).symm, h.along.concat trivial⟩
  · exact ⟨(sessionOpen_append c.trace .loggedOut).symm, h.along.concat trivial⟩

private theorem InOrder.callOnce {c : Client} (h : InOrder c) {β : Type*} (seconds action : String)
    (outcome : Outcome β) : InOrder (callOnce seconds action outcome c).2 := by
  unfold Baostock.callOnce
  split
  all_goals first | exact h | exact h.ended (.inl rfl)

private theorem callOnce_closed {c : Client} (h : c.loggedIn = false) {β : Type*}
    (seconds action : String)
    (outcome : Outcome β) : (callOnce seconds action outcome c).2.loggedIn = false := by
  unfold callOnce
  split
  all_goals first | exact h | rfl

def Closed (c : Client) : Prop := InOrder c ∧ c.loggedIn = false

private theorem Closed.loginOnce {c : Client} (h : Closed c) : Closed (loginOnce service c).2 := by
  obtain ⟨horder, hclosed⟩ := h
  have hrecord : InOrder (c.record .login) := by
    refine ⟨?_, horder.along.concat (horder.flag.symm.trans hclosed)⟩
    exact horder.flag.trans (sessionOpen_append c.trace .login).symm
  exact ⟨hrecord.callOnce _ _ _, callOnce_closed (show (c.record .login).loggedIn = false from hclosed) _ _ _⟩

private theorem InOrder.login {c : Client} (h : InOrder c) :
    InOrder (login service c).2 ∧
      ∀ value, (login service c).1 = .ok value → (login service c).2.loggedIn = true := by
  unfold Baostock.login
  split_ifs with hopen
  · exact ⟨h, fun _ _ => hopen⟩
  · have hclosed : Closed c := ⟨h, Bool.eq_false_iff.mpr hopen⟩
    have hkeeps : Closed (retrying Raised.again (loginOnce service) service.retries c).2 :=
      retrying_keeps (fun c hc => hc.loginOnce service) service.retries hclosed
    rcases hresult : retrying Raised.again (loginOnce service) service.retries c with ⟨result, c'⟩
    rw [hresult] at hkeeps
    cases result with
    | ok value =>
      refine ⟨⟨(sessionOpen_append c'.trace .opened).symm, hkeeps.1.along.concat ?_⟩, fun _ _ => rfl⟩
      exact hkeeps.1.flag.symm.trans hkeeps.2
    | error e => exact ⟨hkeeps.1, fun value hvalue => by cases hvalue⟩

theorem InOrder.attempt {c : Client} (h : InOrder c) (action : String) :
    InOrder (attempt service action c).2 := by
  obtain ⟨horder, hopen⟩ := h.login service
  unfold Baostock.attempt
  rcases hlogin : Baostock.login service c with ⟨result, c'⟩
  rw [hlogin] at horder hopen
  cases result with
  | error e => exact horder
  | ok value =>
    have hrecord : InOrder (c'.record .call) := by
      refine ⟨horder.flag.trans (sessionOpen_append c'.trace .call).symm, horder.along.concat ?_⟩
      exact horder.flag.symm.trans (hopen value rfl)
    exact hrecord.callOnce _ _ _

theorem InOrder.query {c : Client} (h : InOrder c) (action : String) :
    InOrder (query service action c).2 := by
  have horder := (h.login service).1
  unfold Baostock.query
  rcases hlogin : Baostock.login service c with ⟨result, c'⟩
  rw [hlogin] at horder
  cases result with
  | error e => exact horder
  | ok value => exact retrying_keeps (fun c hc => hc.attempt service action) service.retries horder

theorem InOrder.command {c : Client} (h : InOrder c) (command : Command) :
    InOrder (c.command service command) := by
  cases command with
  | query action => exact h.query service action
  | login => exact (h.login service).1
  | logout =>
    show InOrder (Baostock.logout service c)
    unfold Baostock.logout
    split_ifs
    · exact h.ended (.inr rfl)
    · exact h

/-- However the service answers, over any run of queries, logins and logouts each call goes to a
session that a login opened and no failure has ended since, and each login to none. -/
theorem calls_on_open_session (commands : List Command) :
    let c := commands.foldl (Client.command service) Client.new
    c.loggedIn = sessionOpen c.trace ∧ Along Fits c.trace := by
  have hrun : ∀ (commands : List Command) (c : Client), InOrder c →
      InOrder (commands.foldl (Client.command service) c) := by
    intro commands
    induction commands with
    | nil => exact fun c h => h
    | cons command commands ih => exact fun c h => ih _ (h.command service command)
  have horder := hrun commands Client.new ⟨rfl, Along.nil⟩
  exact ⟨horder.flag, horder.along⟩

/-! The number of attempts -/

def Client.count (c : Client) (e : Event) : ℕ := c.trace.count e

private theorem count_callOnce (c : Client) {β : Type*} (seconds action : String)
    (outcome : Outcome β)
    {e : Event} (he : e ≠ .invalidated) :
    (callOnce seconds action outcome c).2.count e = c.count e := by
  unfold callOnce
  split
  all_goals first
    | rfl
    | simp [Client.count, Client.invalidate, List.count_append, he.symm]

private theorem count_record (c : Client) (e e' : Event) :
    (c.record e').count e = c.count e + if e' = e then 1 else 0 := by
  simp [Client.count, Client.record, List.count_append, List.count_singleton]

private theorem count_loginOnce (c : Client) : (loginOnce service c).2.count .call = c.count .call ∧
    (loginOnce service c).2.count .login = c.count .login + 1 := by
  unfold loginOnce
  rw [count_callOnce _ _ _ _ (by decide), count_callOnce _ _ _ _ (by decide), count_record,
    count_record]
  exact ⟨rfl, rfl⟩

private theorem count_opened (c : Client) (isOpen : Bool) {e : Event} (he : e ≠ .opened) :
    Client.count ⟨isOpen, c.trace ++ [.opened]⟩ e = c.count e := by
  simp [Client.count, List.count_append, he.symm]

private theorem count_login (c : Client) :
    (login service c).2.count .call ≤ c.count .call ∧
      (login service c).2.count .login ≤ c.count .login + (service.retries + 1) := by
  have hcalls : (retrying Raised.again (loginOnce service) service.retries c).2.count .call ≤
      c.count .call + (service.retries + 1) * 0 :=
    retrying_cost (Client.count · .call) 0 (fun c => (count_loginOnce service c).1.le) _ c
  have hlogins : (retrying Raised.again (loginOnce service) service.retries c).2.count .login ≤
      c.count .login + (service.retries + 1) * 1 :=
    retrying_cost (Client.count · .login) 1 (fun c => (count_loginOnce service c).2.le) _ c
  rw [Nat.mul_zero, Nat.add_zero] at hcalls
  rw [Nat.mul_one] at hlogins
  unfold login
  split_ifs
  · exact ⟨le_rfl, Nat.le_add_right _ _⟩
  · rcases hresult : retrying Raised.again (loginOnce service) service.retries c with ⟨result, c'⟩
    rw [hresult] at hcalls hlogins
    cases result with
    | ok value =>
      show Client.count ⟨true, c'.trace ++ [.opened]⟩ .call ≤ _ ∧
        Client.count ⟨true, c'.trace ++ [.opened]⟩ .login ≤ _
      rw [count_opened c' true (by decide), count_opened c' true (by decide)]
      exact ⟨hcalls, hlogins⟩
    | error e => exact ⟨hcalls, hlogins⟩

private theorem count_attempt (action : String) (c : Client) :
    (attempt service action c).2.count .call ≤ c.count .call + 1 ∧
      (attempt service action c).2.count .login ≤ c.count .login + (service.retries + 1) := by
  obtain ⟨hcalls, hlogins⟩ := count_login service c
  unfold attempt
  rcases hlogin : login service c with ⟨result, c'⟩
  rw [hlogin] at hcalls hlogins
  cases result with
  | error e => exact ⟨hcalls.trans (Nat.le_add_right _ _), hlogins⟩
  | ok value =>
    simp only [count_callOnce _ _ _ _ (show Event.call ≠ .invalidated by decide),
      count_callOnce _ _ _ _ (show Event.login ≠ .invalidated by decide), count_record]
    exact ⟨Nat.add_le_add_right hcalls 1, hlogins⟩

/-- However the service answers, a query calls it at most `n` times and logs in at most `n + n²`
times, where `n` is `max_attempts` or 1: the logins of an attempt have retries of their own. -/
theorem query_attempts_bounded (action : String) (c : Client) :
    let n := (max service.maxAttempts 1).toNat
    (query service action c).2.count .call ≤ c.count .call + n ∧
      (query service action c).2.count .login ≤ c.count .login + (n + n * n) := by
  intro n
  have hn : service.retries + 1 = n := by
    show (max service.maxAttempts 1).toNat - 1 + 1 = n
    omega
  obtain ⟨hcalls, hlogins⟩ := count_login service c
  unfold query
  rcases hlogin : login service c with ⟨result, c'⟩
  rw [hlogin] at hcalls hlogins
  rw [hn] at hlogins
  cases result with
  | error e => exact ⟨hcalls.trans (Nat.le_add_right _ _), hlogins.trans (by omega)⟩
  | ok value =>
    have hcalls' : (retrying Raised.again (attempt service action) service.retries c').2.count .call ≤
        c'.count .call + (service.retries + 1) * 1 :=
      retrying_cost (Client.count · .call) 1 (fun c => (count_attempt service action c).1) _ c'
    have hlogins' : (retrying Raised.again (attempt service action) service.retries c').2.count
        .login ≤ c'.count .login + (service.retries + 1) * (service.retries + 1) :=
      retrying_cost (Client.count · .login) _ (fun c => (count_attempt service action c).2) _ c'
    rw [hn] at hcalls' hlogins'
    rw [Nat.mul_one] at hcalls'
    exact ⟨hcalls'.trans (Nat.add_le_add_right hcalls n), hlogins'.trans (by
      simp only at hlogins ⊢
      omega)⟩

/-- Errors the service answers with do not end the session: the attempts that are left go to the
same session, and none of them logs in again. -/
theorem api_errors_keep_session {c : Client} (hopen : c.loggedIn = true)
    (hcall : ∀ trace, ∃ message, service.call trace = .raised (.error message)) (action : String) :
    (∃ message, (query service action c).1 = .error (.baostock (.error message))) ∧
      (query service action c).2 = ⟨true, c.trace ++
        List.replicate (max service.maxAttempts 1).toNat .call⟩ := by
  have hlogin : ∀ c : Client, c.loggedIn = true → login service c = (.ok (), c) := fun c hopen =>
    if_pos hopen
  have hattempt : ∀ c : Client, c.loggedIn = true → ∃ message,
      attempt service action c = (.error (.baostock (.error message)), c.record .call) := by
    intro c hopen
    obtain ⟨message, hmessage⟩ := hcall c.trace
    refine ⟨message, ?_⟩
    unfold attempt
    rw [hlogin c hopen]
    simp only [hmessage, callOnce]
  have hrun : ∀ (n : ℕ) (c : Client), c.loggedIn = true → ∃ message,
      retrying Raised.again (attempt service action) n c =
        (.error (.baostock (.error message)), ⟨true, c.trace ++ List.replicate (n + 1) .call⟩) := by
    intro n
    induction n with
    | zero =>
      intro c hopen
      obtain ⟨message, hmessage⟩ := hattempt c hopen
      exact ⟨message, by rw [retrying_zero, hmessage, Client.record, hopen]; rfl⟩
    | succ n ih =>
      intro c hopen
      obtain ⟨message, hmessage⟩ := hattempt c hopen
      obtain ⟨last, hlast⟩ := ih (c.record .call) hopen
      refine ⟨last, ?_⟩
      rw [retrying_again n hmessage rfl, hlast, Client.record, List.append_assoc,
        List.replicate_succ (n := n + 1)]
      rfl
  obtain ⟨message, hmessage⟩ := hrun service.retries c hopen
  have hn : service.retries + 1 = (max service.maxAttempts 1).toNat := by
    unfold Service.retries
    omega
  have hquery : query service action c =
      retrying Raised.again (attempt service action) service.retries c := by
    unfold query
    rw [hlogin c hopen]
  rw [hquery, hmessage, hn]
  exact ⟨⟨message, rfl⟩, rfl⟩

/-- The service has forgotten the login; three attempts are lost. -/
theorem api_errors_keep_session_expired :
    let service : Service Unit := ⟨3, "60", fun _ => .ok (), fun _ => .raised (.error "10001001"),
      fun _ => true⟩
    (∃ message, (query service "query_stock_basic" ⟨true, [.login, .opened]⟩).1 =
      .error (.baostock (.error message))) ∧
    (query service "query_stock_basic" ⟨true, [.login, .opened]⟩).2 =
      ⟨true, [.login, .opened] ++ List.replicate 3 .call⟩ :=
  api_errors_keep_session _ rfl (fun _ => ⟨_, rfl⟩) _

end QuantDataCenter.Sources.Baostock
