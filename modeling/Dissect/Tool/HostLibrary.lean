/-
# The host's own modules

The runtime that a tool lives in brings modules of its own: some are part of the runtime itself,
the others are files in a directory of the host, at the end of the search path.  Those that this
library needs are loaded from the start.  Here they are known by name, and some that pass for no
file by their routines as well, which a tool of the same name is entered through; nothing else that
they do shows.
-/
import Dissect.Files.Layout
import Dissect.Tool.Module

namespace Dissect.HostLibrary

open Files (Node)

/-- The words of a text. -/
def words (s : String) : List String := (Text.splitAt s ' ').filter (· != "")

/-! ## 1. Names -/

/-- The names of the packages. -/
def packages : List String := words <|
   "asyncio collections concurrent concurrent.futures ctypes curses dbm email email.mime " ++
   "encodings html http importlib importlib.metadata importlib.resources json logging " ++
   "multiprocessing multiprocessing.dummy re sqlite3 tomllib unittest urllib wsgiref xml " ++
   "xml.dom xml.etree xml.parsers xml.sax xmlrpc zoneinfo"

/-- The names of the modules that are a file each. -/
def plainModules : List String := words <|
   "__future__ _bisect _bz2 _collections_abc _compression _json _lzma _opcode " ++
   "_posixsubprocess _random _sha512 _struct _uuid _weakrefset abc aifc argparse array ast " ++
   "asynchat asyncio.base_events asyncio.base_futures asyncio.base_subprocess " ++
   "asyncio.base_tasks asyncio.constants asyncio.coroutines asyncio.events " ++
   "asyncio.exceptions asyncio.format_helpers asyncio.futures asyncio.locks asyncio.log " ++
   "asyncio.mixins asyncio.protocols asyncio.queues asyncio.runners asyncio.selector_events " ++
   "asyncio.sslproto asyncio.staggered asyncio.streams asyncio.subprocess asyncio.taskgroups " ++
   "asyncio.tasks asyncio.threads asyncio.timeouts asyncio.transports asyncio.trsock " ++
   "asyncio.unix_events asyncore audioop base64 bdb binascii bisect bz2 cProfile calendar " ++
   "cgi cgitb chunk cmath cmd code codecs codeop collections.abc colorsys compileall " ++
   "concurrent.futures.process concurrent.futures.thread configparser contextlib contextvars " ++
   "copy copyreg crypt csv ctypes.util curses.ascii curses.has_key curses.panel " ++
   "curses.textpad dataclasses datetime dbm.dumb dbm.ndbm decimal difflib dis doctest " ++
   "email.base64mime email.charset email.contentmanager email.encoders email.errors " ++
   "email.feedparser email.generator email.header email.headerregistry email.iterators " ++
   "email.message email.mime.application email.mime.audio email.mime.base email.mime.image " ++
   "email.mime.message email.mime.multipart email.mime.nonmultipart email.mime.text " ++
   "email.parser email.policy email.quoprimime email.utils encodings.aliases encodings.utf_8 " ++
   "enum fcntl filecmp fileinput fnmatch fractions ftplib functools genericpath getopt " ++
   "getpass gettext glob graphlib grp gzip hashlib heapq hmac html.entities html.parser " ++
   "http.client http.cookiejar http.cookies http.server imaplib imghdr imp " ++
   "importlib._bootstrap importlib._bootstrap_external importlib.abc importlib.machinery " ++
   "importlib.readers importlib.resources.abc importlib.resources.readers " ++
   "importlib.resources.simple importlib.simple importlib.util inspect io ipaddress " ++
   "json.decoder json.encoder json.scanner json.tool keyword linecache locale logging.config " ++
   "logging.handlers lzma mailbox mailcap math mimetypes mmap modulefinder " ++
   "multiprocessing.connection multiprocessing.context multiprocessing.dummy.connection " ++
   "multiprocessing.forkserver multiprocessing.heap multiprocessing.managers " ++
   "multiprocessing.pool multiprocessing.popen_fork multiprocessing.popen_forkserver " ++
   "multiprocessing.popen_spawn_posix multiprocessing.process multiprocessing.queues " ++
   "multiprocessing.reduction multiprocessing.resource_sharer " ++
   "multiprocessing.resource_tracker multiprocessing.shared_memory " ++
   "multiprocessing.sharedctypes multiprocessing.spawn multiprocessing.synchronize " ++
   "multiprocessing.util netrc nntplib ntpath numbers opcode operator optparse os pathlib " ++
   "pdb pickle pickletools pipes pkgutil platform plistlib poplib posixpath pprint profile " ++
   "pstats pty py_compile pyclbr pydoc pyexpat queue quopri random re._casefix re._compiler " ++
   "re._constants re._parser readline reprlib resource rlcompleter runpy sched secrets " ++
   "select selectors shelve shlex shutil signal site smtpd smtplib sndhdr socket " ++
   "socketserver spwd sqlite3.dbapi2 sqlite3.dump sre_compile sre_constants sre_parse ssl " ++
   "stat statistics string stringprep struct subprocess sunau symtable sysconfig syslog " ++
   "tabnanny tarfile telnetlib tempfile termios textwrap threading timeit token tokenize " ++
   "trace traceback tracemalloc tty turtle types typing unicodedata unittest.async_case " ++
   "unittest.case unittest.loader unittest.main unittest.mock unittest.result " ++
   "unittest.runner unittest.signals unittest.suite unittest.util urllib.error urllib.parse " ++
   "urllib.request urllib.response urllib.robotparser uu uuid warnings wave weakref " ++
   "webbrowser wsgiref.handlers wsgiref.headers wsgiref.simple_server wsgiref.types " ++
   "wsgiref.util wsgiref.validate xdrlib xml.dom.NodeFilter xml.dom.domreg " ++
   "xml.dom.expatbuilder xml.dom.minicompat xml.dom.minidom xml.dom.pulldom " ++
   "xml.dom.xmlbuilder xml.etree.ElementInclude xml.etree.ElementPath xml.etree.ElementTree " ++
   "xml.etree.cElementTree xml.parsers.expat xml.sax.expatreader xml.sax.handler " ++
   "xml.sax.saxutils xml.sax.xmlreader xmlrpc.client xmlrpc.server zipapp zipfile zipimport " ++
   "zlib"

/-- The names of the modules that are part of the runtime and pass for no file. -/
def builtIn : List String := words <|
   "_abc _ast _codecs _collections _functools _imp _io _locale _operator _signal _sre _stat " ++
   "_string _symtable _thread _tokenize _tracemalloc _typing _warnings _weakref atexit " ++
   "builtins errno faulthandler gc itertools marshal posix pwd sys time xxsubtype"

/-- The names of the modules that are part of the runtime and pass for a file. -/
def frozen : List String := words <|
   "_collections_abc _sitebuiltins abc codecs genericpath importlib.machinery importlib.util " ++
   "io ntpath os posixpath runpy site stat zipimport"

/-- The names of the modules that are loaded from the start. -/
def loaded : List String := words <|
   "__future__ __main__ _abc _ast _bisect _bz2 _codecs _collections _collections_abc " ++
   "_compression _frozen_importlib _frozen_importlib_external _functools _imp _io _json " ++
   "_locale _lzma _opcode _operator _posixsubprocess _random _sha512 _signal _sre _stat " ++
   "_string _struct _thread _typing _uuid _warnings _weakref _weakrefset abc ast atexit " ++
   "base64 binascii bisect builtins bz2 codecs collections collections.abc contextlib copy " ++
   "copyreg dataclasses dis encodings encodings.aliases encodings.utf_8 enum errno fcntl " ++
   "fnmatch functools genericpath importlib importlib._bootstrap " ++
   "importlib._bootstrap_external importlib.machinery inspect io ipaddress itertools json " ++
   "json.decoder json.encoder json.scanner keyword linecache locale logging lzma marshal " ++
   "math ntpath opcode operator os os.path pathlib platform posix posixpath random re " ++
   "re._casefix re._compiler re._constants re._parser reprlib select selectors shutil signal " ++
   "stat string struct subprocess sys tempfile textwrap threading time token tokenize " ++
   "traceback types typing urllib urllib.parse uuid warnings weakref zipimport zlib"

/-! ## 2. Files -/

/-- The path of a module below the directory of the library. -/
def pathOf (directory : Path) (name : String) : Path :=
  (Text.splitAt name '.').foldl Path.child directory

/-- The file of a module. -/
def fileOf? (directory : Path) (name : String) : Option Path :=
  let path := pathOf directory name
  if packages.contains name then some (path.child "__init__.py")
  else if plainModules.contains name then some (path.parent.child (path.name ++ ".py"))
  else none

/-- The files of the library.  What the modules do does not show, so they do nothing. -/
def nodes (directory : Path) : List (Path × Node) :=
  (packages ++ plainModules).filterMap fun name =>
    (fileOf? directory name).map fun path => (path, .file (.script {}) 0o644)

/-! ## 3. Routines -/

/-- Routines that refuse what the entry point of a tool is given, with one message. -/
def refusingAll (message : String) (names : String) : List (String × Member) :=
  (words names).map fun name => (name, .refusing message)

/-- Routines of a module that take nothing. -/
def takingNothing (module names : String) : List (String × Member) :=
  (words names).map fun name =>
    (name, .refusing (module ++ "." ++ name ++ "() takes no arguments (1 given)"))

/-- What is known of the routines of the modules that are part of the runtime and pass for no file:
those that refuse what the entry point of a tool is given. -/
def routines : List (String × List (String × Member)) :=
  [("atexit",
      takingNothing "atexit" "_clear _ncallbacks _run_exitfuncs" ++
      refusingAll "the first argument must be callable" "register"),
   ("gc",
      takingNothing "gc" ("disable enable freeze get_count get_debug get_freeze_count get_stats " ++
        "get_threshold isenabled unfreeze") ++
      refusingAll "'list' object cannot be interpreted as an integer"
        "collect set_debug set_threshold" ++
      refusingAll "argument should be integer or None, not 'list'" "get_objects"),
   ("marshal",
      refusingAll "dump expected at least 2 arguments, got 1" "dump" ++
      refusingAll "a bytes-like object is required, not 'list'" "loads"),
   ("time",
      takingNothing "time" ("monotonic monotonic_ns perf_counter perf_counter_ns process_time " ++
        "process_time_ns thread_time thread_time_ns time time_ns tzset") ++
      refusingAll "'list' object cannot be interpreted as an integer"
        "clock_getres clock_gettime clock_gettime_ns ctime gmtime localtime sleep" ++
      refusingAll "clock_settime() takes exactly 2 arguments (1 given)"
        "clock_settime clock_settime_ns" ++
      refusingAll "Tuple or struct_time argument required" "asctime mktime" ++
      refusingAll "get_clock_info() argument 1 must be str, not list" "get_clock_info" ++
      refusingAll "pthread_getcpuclockid() argument 1 must be int, not list"
        "pthread_getcpuclockid" ++
      refusingAll "strftime() argument 1 must be str, not list" "strftime" ++
      refusingAll "strptime() argument 0 must be str, not <class 'list'>" "strptime")]

/-! ## 4. Modules -/

/-- A loaded module of the library. -/
def moduleOf (directory : Path) (name : String) : Module :=
  { serial := 0, origin := (fileOf? directory name).map Path.text,
    packagePath := if packages.contains name then some [(pathOf directory name).text] else none }

/-- What loaded a module that is part of the runtime itself: a class, which makes nothing of what
the entry point of a tool is given. -/
def loader (className : String) : String × Member :=
  ("__loader__", .refusing (className ++ "() takes no arguments"))

/-- The modules that are part of the runtime itself. -/
def resident (directory : Path) : List (String × Resident) :=
  (builtIn.map fun name =>
    (name, { members := loader "BuiltinImporter" :: (routines.lookup name).getD [] })) ++
  frozen.map fun name =>
    (name, { origin := (fileOf? directory name).map Path.text,
             members := [loader "FrozenImporter"] })

/-- The table of a host on which some modules without a file are loaded besides those of the
library. -/
def table (directory : Path) (names : List String) : ModuleTable :=
  let own := (loaded.filter fun name => !names.contains name).foldl
    (fun t name => t.add name (moduleOf directory name)) (ModuleTable.ofHost names [directory.text])
  { own with resident := resident directory }

end Dissect.HostLibrary
