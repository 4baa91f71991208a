import Conman.Buffer
import Conman.Object
import Conman.Close
import Conman.Link
import Conman.Flush
import Conman.Read
import Conman.Engine
import Conman.Symmetry
import Conman.Delivery
import Conman.Lifetime
import Conman.Progress
import Conman.Lex
import Conman.Directive
import Conman.Options
import Conman.ConfFile
import Conman.FileSpec
import Conman.Daemon
