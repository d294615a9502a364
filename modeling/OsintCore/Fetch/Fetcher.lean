import OsintCore.Fetch.Guard

structure FetchedResponse where
  url     : Url
  status  : Nat
  headers : List (String × String)
  body    : Bytes

-- A header which comes twice counts with its last value.
def collectHeaders (headers : List (String × Option String)) : List (String × String) :=
  headers.foldl (fun collected (name, value) =>
    match value with
    | none       => collected
    | some value =>
      let name := Text.toAsciiLowercase name
      (name, value) :: collected.filter (·.fst ≠ name)) []

def Response.location (r : Response) : Option String :=
  r.headers.find? (Text.eqIgnoreAsciiCase ·.fst "location") >>= Prod.snd

def Response.isRedirection (r : Response) : Bool :=
  300 ≤ r.status ∧ r.status < 400

def Response.isSuccess (r : Response) : Bool :=
  200 ≤ r.status ∧ r.status < 300

def readBody (limit : Nat) (r : Response) : Except ConnectorError Bytes :=
  if r.contentLength.any (limit < ·) then
    .error (.responseTooLarge limit)
  else
    r.chunks.foldlM (fun body chunk =>
      match chunk with
      | none       => .error .fetch
      | some chunk =>
        if limit < body.length + chunk.length then .error (.responseTooLarge limit)
        else .ok (body ++ chunk)) []

structure GuardedFetcher where
  guard : SsrfGuard
  lib   : NetLib
  env   : Environment

namespace GuardedFetcher

variable (f : GuardedFetcher)

def acquire (domain : String) : Fetching Unit := do
  let admitted ← .read (f.env.allows · domain)
  if admitted then return () else .fail (.rateLimited domain)

def send (request : Request) : Fetching Response := do
  let answer ← .step (fun log => log ++ [⟨request, f.env.answer log request⟩])
    fun log => .done (f.env.answer log request)
  match answer with
  | .ok response    => return response
  | .error .timeout => .fail .timeout
  | .error .other   => .fail .fetch

-- A redirection turns the request into a plain one, unless its status says otherwise.
def redirected (status : Nat) (method : Method) (body : Option Bytes) : Method × Option Bytes :=
  if status = 307 ∨ status = 308 then (method, body) else (.get, none)

-- The number is how many redirections may still be followed. Each hop passes the guard again.
def follow (headers : List (String × String)) :
    Nat → Method → Url → Option Bytes → Fetching FetchedResponse
  | hops, method, url, body => do
    let now ← .read f.env.now
    let decision ← f.guard.check f.lib f.env url now
    f.acquire decision.host
    let response ← f.send
      { method, url, headers, body
        pinnedHost := decision.host
        pinnedIp   := SsrfGuard.pinnedIp decision
        pinnedPort := decision.port }
    if response.status = 304 then
      return { url, status := response.status, headers := collectHeaders response.headers, body := [] }
    else if response.isRedirection then
      match hops with
      | 0        => .fail (.tooManyRedirects f.guard.policy.maxRedirects)
      | hops + 1 =>
        match response.location with
        | none          => .fail .fetch
        | some location =>
          match f.lib.join url location with
          | none      => .fail (.invalidUrl location)
          | some next =>
            let (method, body) := redirected response.status method body
            follow headers hops method next body
    else if ¬response.isSuccess then
      .fail .fetch
    else do
      let body ← SsrfGuard.ofExcept <| readBody f.guard.policy.maxResponseBytes response
      return { url, status := response.status, headers := collectHeaders response.headers, body }

def request (method : Method) (url : String) (headers : List (String × String))
    (body : Option Bytes) : Fetching FetchedResponse :=
  match f.lib.parseUrl url with
  | none     => .fail (.invalidUrl url)
  | some url => f.follow headers f.guard.policy.maxRedirects method url body

end GuardedFetcher
