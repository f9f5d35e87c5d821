import NetConductor.Server.Runs

/-! The administrator's password and sessions: what a request has to carry, what
`login` and `logout` do, and which routes ask. -/
namespace NetConductor
open Durable

/-- What a request can authenticate as administrator with: its Authorization
header, empty if it has none, and the value of its cookie `nc_session`. -/
structure AdminHeaders where
  authorization : String
  cookie : Option String
deriving DecidableEq

/-- The patterns that `Handler` registers. -/
inductive Route where
  | remoteAgent
  | remoteBrowser
  | sshKey
  | login (body : Decoded String)
  | logout
  | state
  | enrollment
  | join
  | heartbeat
  | updateDevice
  | putPolicy
  | putMapping
  | deleteMapping
  | terminal
  | health
  | assets
deriving DecidableEq

/-- The routes that go through `guard`. -/
def Route.guarded : Route → Bool
  | .remoteBrowser | .state | .enrollment | .updateDevice | .putPolicy | .putMapping |
    .deleteMapping | .terminal => true
  | _ => false

namespace Server

def admin (now : Time) (h : AdminHeaders) (s : Server) : Bool :=
  equal (bearer h.authorization) s.cfg.adminToken ||
    match h.cookie with
    | none => false
    | some c =>
        match s.sessions.lookup c with
        | some t => now < t
        | none => false

/-- Whether every attempt of the list is more than a minute old, read off the
last one. -/
def stale (now : Time) (ts : List Time) : Bool :=
  match ts.getLast? with
  | none => true
  | some t => minute < now - t

def pruneAttempts (now : Time) (s : Server) : Server :=
  if 4096 < s.loginAttempts.entries.length then
    { s with loginAttempts := deleteIf s.loginAttempts (stale now) }
  else s

/-- The attempts of an address that count. -/
def recentAttempts (now : Time) (ip : String) (s : Server) : List Time :=
  ((s.loginAttempts.lookup ip).getD []).filter fun t => now - t < minute

def recordAttempt (now : Time) (ip : String) (s : Server) : Server :=
  { s with loginAttempts := s.loginAttempts.insert ip (s.recentAttempts now ip ++ [now]) }

/-- The new session lasts twelve hours; those that are over go. -/
def openSession (now : Time) (token : String) (s : Server) : Server :=
  { s with sessions := (deleteIf s.sessions fun t => t < now).insert token (now + 12 * hour) }

/-- `login`: the answer is the cookie it sets. `ip` is the host of the address
that the request comes from, `token` what `Token()` returns. -/
def login (now : Time) (ip token : String) (body : Decoded String) (s : Server) :
    Server × Except Failure String :=
  match body with
  | .error e => (s, .error ⟨400, e⟩)
  | .ok password =>
      let s := s.pruneAttempts now
      if 10 ≤ (s.recentAttempts now ip).length then
        (s, .error ⟨429, "尝试过于频繁，请稍后重试"⟩)
      else
        let s := s.recordAttempt now ip
        if equal password s.cfg.adminToken = false then (s, .error ⟨401, "管理密码错误"⟩)
        else (s.openSession now token, .ok token)

def logout (h : AdminHeaders) (s : Server) : Server :=
  match h.cookie with
  | none => s
  | some c => { s with sessions := s.sessions.erase c }

/-! ### What a request and a login come to -/

/-- An admin shows the token or a session that has not expired. -/
theorem admin_true {s : Server} {now : Time} {h : AdminHeaders} :
    s.admin now h = true ↔ equal (bearer h.authorization) s.cfg.adminToken = true ∨
      ∃ c t, h.cookie = some c ∧ s.sessions.lookup c = some t ∧ now < t := by
  rw [admin, Bool.or_eq_true]
  refine or_congr Iff.rfl ?_
  cases h.cookie with
  | none => simp
  | some c => cases hLookup : s.sessions.lookup c <;> simp [hLookup]

theorem pruneAttempts_access (now : Time) (s : Server) :
    (s.pruneAttempts now).cfg = s.cfg ∧ (s.pruneAttempts now).sessions = s.sessions := by
  unfold pruneAttempts
  split <;> exact ⟨rfl, rfl⟩

/-- `login` opens a session for its token or none. -/
theorem login_sessions (now : Time) (ip token : String) (body : Decoded String) (s : Server) :
    (s.login now ip token body).1.cfg = s.cfg ∧
      (((∃ e, (s.login now ip token body).2 = .error e) ∧
          (s.login now ip token body).1.sessions = s.sessions) ∨
        ((s.login now ip token body).2 = .ok token ∧ (s.login now ip token body).1.sessions =
          (deleteIf s.sessions fun t => t < now).insert token (now + 12 * hour))) := by
  obtain ⟨hCfg, hSessions⟩ := s.pruneAttempts_access now
  unfold login
  cases body with
  | error e => exact ⟨rfl, .inl ⟨⟨_, rfl⟩, rfl⟩⟩
  | ok password =>
      dsimp only
      split_ifs
      · exact ⟨hCfg, .inl ⟨⟨_, rfl⟩, hSessions⟩⟩
      · exact ⟨hCfg, .inl ⟨⟨_, rfl⟩, hSessions⟩⟩
      · refine ⟨hCfg, .inr ⟨rfl, ?_⟩⟩
        rw [openSession, recordAttempt, hSessions]

/-! ### What the other handlers leave alone -/

/-- The password, the sessions and the attempts are the same. -/
structure SameAccess (s t : Server) : Prop where
  cfg : t.cfg = s.cfg
  sessions : t.sessions = s.sessions
  loginAttempts : t.loginAttempts = s.loginAttempts

theorem SameAccess.refl (s : Server) : SameAccess s s := ⟨rfl, rfl, rfl⟩

theorem SameAccess.audit (s : Server) (now : Time) (action detail : String) :
    SameAccess s (s.audit now action detail) := ⟨by simp, by simp only [Server.audit], by
      simp only [Server.audit]⟩

/-- Sections that leave the password, the sessions and the attempts alone. -/
def AccessKept (s : Server) (sec : Section Server Answer) : Prop :=
  sec.Holds (SameAccess s) (SameAccess s)

/-- A heartbeat leaves the password, the sessions and the attempts alone. -/
theorem heartbeat_access (env : Env) (authorization : String) (body : Decoded HeartbeatRequest)
    (s : Server) : s.AccessKept (s.heartbeat env authorization body) := by
  have hSelf := SameAccess.refl s
  rcases s.heartbeat_cases env authorization body with ⟨status, e, h⟩ |
    ⟨v, d, ans, -, -, -, -, ⟨-, h⟩ | ⟨-, h⟩⟩ <;> rw [h]
  · exact hSelf
  · exact ⟨⟨rfl, rfl, rfl⟩, ⟨rfl, rfl, rfl⟩, ⟨rfl, rfl, rfl⟩⟩
  · exact ⟨rfl, rfl, rfl⟩

theorem updateDevice_access (env : Env) (id : String) (body : Decoded DeviceSettings) (s : Server) :
    s.AccessKept (s.updateDevice env id body) := by
  rcases s.updateDevice_cases env id body with ⟨status, e, h⟩ | ⟨v, old, -, -, -, h⟩ <;> rw [h]
  · exact SameAccess.refl s
  · have hAudit := SameAccess.audit (s.setDevice id (applySettings v)) env.now "device.update" v.name
    exact ⟨⟨hAudit.1, hAudit.2, hAudit.3⟩, ⟨hAudit.1, hAudit.2, hAudit.3⟩,
      ⟨hAudit.1, hAudit.2, hAudit.3⟩⟩

theorem putPolicy_access (env : Env) (id : String) (body : Decoded Policy) (s : Server) :
    s.AccessKept (s.putPolicy env id body) := by
  rcases s.putPolicy_cases env id body with ⟨status, e, h⟩ | ⟨v, -, -, -, -, -, h⟩ <;> rw [h]
  · exact SameAccess.refl s
  · have hAudit := SameAccess.audit
      { s with state.policies := storePolicy (storedPolicy id v) s.state.policies } env.now
      "policy.update" id
    exact ⟨⟨hAudit.1, hAudit.2, hAudit.3⟩, ⟨hAudit.1, hAudit.2, hAudit.3⟩,
      ⟨hAudit.1, hAudit.2, hAudit.3⟩⟩

/-- A join leaves the password, the sessions and the attempts alone. -/
theorem join_access (env : Env) (body : Decoded JoinRequest) (s : Server) :
    s.AccessKept (s.join env body) := by
  rcases s.join_cases env body with ⟨status, e, wg, h⟩ | ⟨req, plan, -, -, h⟩ <;> rw [h]
  · exact SameAccess.refl s
  · have hAdd : SameAccess s (s.addDevice env (joinedDevice req env plan.ip)) :=
      ⟨by simp, by simp only [addDevice, audit], by simp only [addDevice, audit]⟩
    exact ⟨hAdd, ⟨hAdd.1, hAdd.2, hAdd.3⟩, ⟨hAdd.1, hAdd.2, hAdd.3⟩⟩

end Server

namespace Process

/-- No other critical section touches the password, the sessions or the
attempts. -/
theorem exec_access {p : Process} {op : Op} {sec : Section Process Answer}
    (h : p.exec op = some sec) :
    sec.Holds (fun q => p.server.SameAccess q.server) (fun q => p.server.SameAccess q.server) := by
  have hSelf := Server.SameAccess.refl p.server
  have hOn : ∀ sec', p.server.AccessKept sec' → p.onServer sec' = some sec →
      sec.Holds (fun q => p.server.SameAccess q.server) (fun q => p.server.SameAccess q.server) := by
    rintro sec' hKept hSec
    obtain rfl := Option.some.inj hSec
    exact (Section.holds_map ..).mpr hKept
  cases op with
  | createCode env body =>
      obtain ⟨codes, hResult, -⟩ := Server.createCode_cases env body p.server
      refine hOn (.answer _ _) ?_ h
      rw [hResult]
      exact ⟨rfl, rfl, rfl⟩
  | join env body => exact hOn _ (Server.join_access env body _) h
  | heartbeat env authorization body => exact hOn _ (Server.heartbeat_access env authorization body _) h
  | updateDevice env id body => exact hOn _ (Server.updateDevice_access env id body _) h
  | putPolicy env id body => exact hOn _ (Server.putPolicy_access env id body _) h
  | setActive id active => exact hOn (.answer (p.server.setActive id active) _) ⟨rfl, rfl, rfl⟩ h
  | writeProbe id result => exact hOn (.answer (p.server.writeProbe id result) _) ⟨rfl, rfl, rfl⟩ h
  | saveProbe => exact hOn (.persist _ _ _) ⟨hSelf, hSelf, hSelf⟩ h
  | auditSession env action detail =>
      have hAudit := Server.SameAccess.audit p.server env.now action detail
      exact hOn (.persist _ _ _) ⟨hAudit, hAudit, hAudit⟩ h
  | putMapping env body =>
      rcases putMapping_cases h with ⟨status, e, rfl⟩ | ⟨m, -, -, -, -, rfl⟩ <;> exact hSelf
  | openMapping listen =>
      obtain ⟨m, -, ⟨e, rfl⟩ | ⟨l, -, rfl⟩⟩ := openMapping_cases h <;> exact hSelf
  | commitMapping env =>
      obtain ⟨m, stop, -, rfl⟩ := commitMapping_cases h
      have hAdd : p.server.SameAccess (p.server.addMapping env m) :=
        ⟨by simp, by simp only [Server.addMapping, Server.audit], by
          simp only [Server.addMapping, Server.audit]⟩
      exact ⟨hAdd, ⟨hAdd.1, hAdd.2, hAdd.3⟩, ⟨hAdd.1, hAdd.2, hAdd.3⟩⟩
  | deleteMapping env id =>
      obtain ⟨-, rfl | ⟨-, rfl⟩⟩ := deleteMapping_cases h
      · exact hSelf
      · have hRemove : p.server.SameAccess (p.server.removeMapping env id) :=
          ⟨by simp, by simp only [Server.removeMapping, Server.audit], by
            simp only [Server.removeMapping, Server.audit]⟩
        exact ⟨hRemove, ⟨hRemove.1, hRemove.2, hRemove.3⟩, ⟨hRemove.1, hRemove.2, hRemove.3⟩⟩
  | restoreMappings =>
      obtain ⟨-, -, rfl⟩ := restoreMappings_cases h
      exact hSelf
  | restoreNext listen =>
      rcases restoreNext_cases h with ⟨-, rfl⟩ |
        ⟨m, todo, -, ⟨-, rfl⟩ | ⟨-, e, -, rfl⟩ | ⟨-, l, -, rfl⟩⟩ <;> exact ⟨rfl, rfl, rfl⟩
  | restoreMark =>
      obtain ⟨id, error, todo, -, rfl⟩ := restoreMark_cases h
      exact ⟨rfl, rfl, rfl⟩

end Process
end NetConductor
